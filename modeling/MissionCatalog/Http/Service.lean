import MissionCatalog.Http.Form
import MissionCatalog.Http.Message
import MissionCatalog.Http.Route
import MissionCatalog.Inquiry
import MissionCatalog.Json.FirstFault
import MissionCatalog.Store

/-!
The catalog server: it reads a request, which may already be refused, and then answers what was asked.
-/
namespace MissionCatalog.Http
open Json

structure Service where
  store : Store
  privileges : PrivilegeTable
  defaultLimit : Nat

inductive Task where
  | health
  | instances
  | inquire (view : View) (inquiry : Inquiry)

def idExpectation : Expectation :=
  .record [⟨"name", false, .text⟩, ⟨"namespace", true, .orNull .text⟩]

def batchExpectation : Expectation :=
  .record [⟨"id", true, .listOf idExpectation⟩]

def readIds (j : Json) : Read (List ObjectId) := do
  let fs ← j.asRecord ["id"]
  fs.list "id" ObjectId.ofJson

/-- The status of a body that cannot be used. -/
def faultStatus : Fault → Nat
  | .flaw => 400
  | .shape => 422

def queryStatus : QueryError.Category → Nat
  | .notFound => 404
  | .forbidden => 403
  | .badRequest => 400

namespace Service

def pathText (s : List Char) : Except Response String :=
  match pathText? s with
  | some text => .ok text
  | none => .error (.empty 400)

def view (s : Service) (name user : String) : Except Response View :=
  match s.store.get? name with
  | some db => .ok ⟨db, s.privileges.viewer user, s.defaultLimit⟩
  | none => .error (.error 404 ("No such instance '" ++ name ++ "'"))

def readBatch (r : Request) : Except Response (List ObjectId) :=
  if r.declaresJson then
    (readExpected batchExpectation readIds r.body).mapError fun fault => .empty (faultStatus fault)
  else .error (.empty 415)

def readListing (c : Collection) (query : List Char) : Except Response Inquiry :=
  match c.inquiry? query with
  | some inquiry => .ok inquiry
  | none => .error (.error 400 "Failed to deserialize query string")

/-- The task of a request on a route that allows its method. The path is read first, then the query or
the body, and the instance is looked up last. -/
def taskOf (s : Service) (route : Route) (query : List Char) (r : Request) : Except Response Task :=
  match route with
  | .health => .ok .health
  | .instances => .ok .instances
  | .summary name => do
    let name ← pathText name
    return .inquire (← s.view name r.user) .summary
  | .listing name collection => do
    let name ← pathText name
    let inquiry ← readListing collection query
    return .inquire (← s.view name r.user) inquiry
  | .entity name kind path => do
    let name ← pathText name
    let path ← pathText path
    return .inquire (← s.view name r.user) (.get kind path)
  | .batch name => do
    let name ← pathText name
    let ids ← readBatch r
    return .inquire (← s.view name r.user) (.batch ids)

def read (s : Service) (r : Request) : Except Response Task :=
  let address := Address.ofText r.address
  match Route.ofPath? address.path with
  | none => .error (.empty 404)
  | some route => if route.allows r.method then s.taskOf route address.query r else .error (.empty 405)

def instanceJson (name : String) (db : Database) : Json :=
  .object (("name", .string name) :: ("missionDatabase", .string db.name) ::
    field? "version" (db.version.map .string))

def instancesJson (s : Service) : Json :=
  .object [("instances", .array (s.store.catalogs.entries.map fun (name, db) => instanceJson name db))]

def perform (s : Service) : Task → Response
  | .health => .ok (.object [("status", .string "healthy")])
  | .instances => .ok s.instancesJson
  | .inquire view inquiry =>
    match view.answer inquiry with
    | .ok j => .ok j
    | .error e => .error (queryStatus e.category) e.message

def respond (s : Service) (r : Request) : Response :=
  let response := match s.read r with
    | .ok task => s.perform task
    | .error refusal => refusal
  if r.method = "HEAD" then .empty response.status else response

def log (s : Service) (r : Request) : List LogRecord :=
  match s.read r with
  | .ok (.inquire view inquiry) => view.answerLog inquiry
  | _ => []

/-- The service that a configuration describes, if all its catalogs can be loaded. -/
def start (textOf? : String → Option String) (c : Config) (withSimulator : Bool) :
    Except LoadError Service := do
  let loaded ← Store.empty.load textOf? c.catalogs
  let store ← if withSimulator then loaded.addSimulator else .ok loaded
  return { store, privileges := c.privileges, defaultLimit := c.defaultLimit.toNat }

def servingRecord (s : Service) : LogRecord :=
  ⟨.info, "Serving " ++ toString s.store.size ++ " catalog instance(s), " ++
    toString s.privileges.users.size ++ " user(s) with privileges"⟩

def startLog (textOf? : String → Option String) (c : Config) (withSimulator : Bool) :
    List LogRecord :=
  Store.loadLog textOf? c.catalogs ++
    match start textOf? c withSimulator with
    | .ok s => (if withSimulator then Store.simulatorLog else []) ++ [s.servingRecord]
    | .error _ => []

end Service

end MissionCatalog.Http
