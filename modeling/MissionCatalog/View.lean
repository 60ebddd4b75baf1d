import MissionCatalog.Page
import MissionCatalog.Privilege
import MissionCatalog.Resolve
import MissionCatalog.Scope
import MissionCatalog.Search

/-!
A mission database as one user sees it. Listings leave out what the user may not read; asking for it
by name is refused.
-/
namespace MissionCatalog

structure View where
  db : Database
  viewer : Viewer
  /-- The number of items on a page when a request does not say. -/
  defaultLimit : Nat

structure ListRequest where
  system : Option String
  query : Option String
  page : PageRequest
deriving DecidableEq, Repr

structure ParameterRequest where
  list : ListRequest
  /-- Names of types, in any case. Without one all parameters pass. -/
  types : List String
  source : Option DataSource
  searchMembers : Bool
deriving DecidableEq, Repr

structure CommandRequest where
  list : ListRequest
  noAbstract : Bool
deriving DecidableEq, Repr

structure AlgorithmRequest where
  list : ListRequest
  scope : Option AlgorithmScope
deriving DecidableEq, Repr

def ListRequest.matcher (r : ListRequest) : Matcher := .ofQuery (r.query.getD "")

/-- The scope that a request names. -/
inductive ScopeChoice where
  | everything
  | within (s : SpaceSystem)
  | nothing

/-- Slashes at the end of a scope's path do not count. -/
def scopePath (system : String) : String :=
  match Text.trimEnd '/' system.toList with
  | [] => "/"
  | path => String.ofList path

def Database.scope (db : Database) (system : Option String) : ScopeChoice :=
  match system with
  | none => .everything
  | some system =>
    match db.resolveSystem (scopePath system) with
    | .ok s => .within s
    | .error _ => .nothing

/-- An item of a listing of parameters. -/
structure ParameterMatch where
  parameter : Parameter
  /-- The path of the member that was found, unless the parameter itself was. -/
  path : Option MemberPath

/-- The qualified name of the parameter, with the path of the member behind it. -/
def ParameterMatch.text (m : ParameterMatch) : String :=
  m.parameter.qualifiedName ++ (m.path.map MemberPath.text).getD ""

def Entity.pageKey {k : MemberKind} (e : Entity k) : PageKey := ⟨e.qualifiedName, none⟩

def SpaceSystem.pageKey (s : SpaceSystem) : PageKey := ⟨s.qualifiedName, none⟩

def ParameterMatch.pageKey (m : ParameterMatch) : PageKey :=
  ⟨m.parameter.qualifiedName, m.path.map MemberPath.text⟩

structure BatchItem where
  id : ObjectId
  parameter : Parameter

namespace View

def readable (v : View) (k : MemberKind) : List (Entity k) :=
  (v.db.table k).sorted.filter fun e => v.viewer.hasAccess k e.qualifiedName

/-- The readable entities in the scope of the request that pass the filter, before the search. -/
def candidates (v : View) {k : MemberKind} (r : ListRequest) (rule : ChildRule)
    (keep : Entity k → Bool) : Scoped (Entity k) :=
  let shown (scope : Option SpaceSystem) : Scoped (Entity k) :=
    let all := v.db.restrict (v.readable k) scope (!r.matcher.isEmpty) rule
    ⟨all.items.filter keep, all.systems⟩
  match v.db.scope r.system with
  | .nothing => ⟨[], []⟩
  | .everything => shown none
  | .within s => shown (some s)

/-- The entities that a listing consists of, with the children offered for navigation. -/
def found (v : View) {k : MemberKind} (r : ListRequest) (rule : ChildRule)
    (keep : Entity k → Bool) : Scoped (Entity k) :=
  let c := v.candidates r rule keep
  ⟨c.items.filter fun e => r.matcher.inHead e.head, c.systems⟩

def page {α : Type} (v : View) (key : α → PageKey) (r : PageRequest) (found : Scoped α) :
    Except QueryError (Page α) :=
  (Page.build key found.items r v.defaultLimit).map (·.withSystems found.systems)

def foundContainers (v : View) (r : ListRequest) : Scoped Container :=
  v.found r .withContainers fun _ => true

def foundCommands (v : View) (r : CommandRequest) : Scoped Command :=
  v.found r.list .withCandidates fun c => !(r.noAbstract && c.details.isAbstract)

def foundAlgorithms (v : View) (r : AlgorithmRequest) : Scoped Algorithm :=
  v.found r.list .withCandidates fun a => r.scope.all (a.details.scope = ·)

def listContainers (v : View) (r : ListRequest) : Except QueryError (Page Container) :=
  v.page Entity.pageKey r.page (v.foundContainers r)

def listCommands (v : View) (r : CommandRequest) : Except QueryError (Page Command) :=
  v.page Entity.pageKey r.list.page (v.foundCommands r)

def listAlgorithms (v : View) (r : AlgorithmRequest) : Except QueryError (Page Algorithm) :=
  v.page Entity.pageKey r.list.page (v.foundAlgorithms r)

/-- The texts are equal but for the case of ASCII letters. -/
def sameName (a b : String) : Bool := a.toList.map Char.toLower == b.toList.map Char.toLower

/-- The parameter has the source and one of the types that the request names. -/
def passes (v : View) (r : ParameterRequest) (p : Parameter) : Bool :=
  r.source.all (p.details.source = some ·) &&
    (r.types.isEmpty ||
      (v.db.typeOf? p).any fun t => r.types.any (sameName · t.details.dataType.typeName))

def foundMembers (v : View) (m : Matcher) (p : Parameter) : List ParameterMatch :=
  match v.db.typeOf? p with
  | some t => (m.membersOf t.details.dataType).map fun path => ⟨p, some path⟩
  | none => []

/-- The parameters that a listing consists of, then their members. -/
def foundParameters (v : View) (r : ParameterRequest) : Scoped ParameterMatch :=
  let c := v.candidates r.list .withCandidates (v.passes r)
  let m := r.list.matcher
  let whole := (c.items.filter fun p => m.inHead p.head).map fun p => ⟨p, none⟩
  ⟨whole ++ if r.searchMembers then c.items.flatMap (v.foundMembers m) else [], c.systems⟩

def listParameters (v : View) (r : ParameterRequest) : Except QueryError (Page ParameterMatch) :=
  v.page ParameterMatch.pageKey r.list.page (v.foundParameters r)

def requireCatalog (v : View) : Except QueryError Unit :=
  if v.viewer.readsCatalog then .ok () else .error (.noCatalogAccess v.viewer.id)

def foundSystems (v : View) (query : Option String) : Scoped SpaceSystem :=
  let m := Matcher.ofQuery (query.getD "")
  ⟨v.db.systems.sorted.filter fun s => !s.isRoot && m.inHead s.head, []⟩

def listSystems (v : View) (query : Option String) (r : PageRequest) :
    Except QueryError (Page SpaceSystem) := do
  v.requireCatalog
  v.page SpaceSystem.pageKey r (v.foundSystems query)

def authorize (v : View) {k : MemberKind} (e : Entity k) : Except QueryError Unit :=
  if v.viewer.hasAccess k e.qualifiedName then .ok () else .error (.noAccess k e.qualifiedName)

/-- Access is decided before the member path is looked at, so that a refusal says nothing about the
parameter's type. -/
def getParameter (v : View) (path : String) : Except QueryError ParameterRef := do
  let r ← v.db.resolveParameter path
  v.authorize r.parameter
  r.verify v.db
  return r

def get (v : View) (k : MemberKind) (path : String) : Except QueryError (Entity k) := do
  let found ← v.db.resolve k path
  v.authorize found.entity
  return found.entity

def getContainer (v : View) (path : String) : Except QueryError Container := v.get .container path

def getCommand (v : View) (path : String) : Except QueryError Command := v.get .command path

def getAlgorithm (v : View) (path : String) : Except QueryError Algorithm := v.get .algorithm path

def getParameterType (v : View) (path : String) : Except QueryError ParameterType := do
  v.requireCatalog
  return (← v.db.resolve .parameterType path).entity

def getSystem (v : View) (path : String) : Except QueryError SpaceSystem := do
  v.requireCatalog
  v.db.resolveSystem path

def parameterOf (v : View) (id : ObjectId) : Except QueryError Parameter :=
  if id.name = "" then .error .unnamedId
  else
    match (v.db.table .parameter).getById? id with
    | some p => .ok p
    | none => .error (.unknownId id)

def mayRead (v : View) (p : Parameter) : Bool := v.viewer.hasAccess (.member .parameter) p.qualifiedName

/-- The parameters that the ids name. Those that the user may not read are left out; an id that names
none fails the whole request. -/
def batch (v : View) (ids : List ObjectId) : Except QueryError (List BatchItem) := do
  let items ← ids.mapM fun id => (v.parameterOf id).map (BatchItem.mk id)
  return items.filter fun item => v.mayRead item.parameter

end View

/-- What the database holds, in numbers, and its topmost space systems. -/
structure Summary where
  db : Database
  systems : List String

def View.summary (v : View) : Except QueryError Summary := do
  v.requireCatalog
  return { db := v.db, systems := v.db.root.systems.mergeSort }

end MissionCatalog
