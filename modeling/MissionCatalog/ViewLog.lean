import MissionCatalog.Text.Quoted
import MissionCatalog.View

/-!
Records for a log, and those that queries leave in it. Functions that have something to report say it
beside their result, as a list. The records of a query say what was asked and how much was found; they
do not depend on how the answer is shown.
-/
namespace MissionCatalog

inductive LogLevel where
  | debug
  | info
  | warn
  | error
deriving DecidableEq, Repr

def LogLevel.text : LogLevel → String
  | debug => "DEBUG"
  | info => "INFO"
  | warn => "WARN"
  | error => "ERROR"

structure LogRecord where
  level : LogLevel
  text : String
deriving DecidableEq, Repr

/-- A request that gives both an offset and a token is noted, if it asks for a page at all. -/
def PageRequest.log (r : PageRequest) (defaultLimit : Nat) : List LogRecord :=
  if r.limit.getD defaultLimit ≠ 0 ∧ r.pos.isSome ∧ r.next.isSome then
    [⟨.debug, "Both pos and next given; continuing from the token"⟩]
  else []

namespace View

def pageLog (v : View) (r : PageRequest) : List LogRecord := r.log v.defaultLimit

def scopeLog (v : View) (system : Option String) : List LogRecord :=
  match system, v.db.scope system with
  | some system, .nothing => [⟨.debug, "No space system " ++ system ++ ", nothing to list"⟩]
  | _, _ => []

def listLog (v : View) (what : String) (r : ListRequest) (count : Nat) : List LogRecord :=
  let listing := "Listing " ++ what ++ " under " ++ Text.quoted? r.system ++ " for " ++ v.viewer.id ++
    ": " ++ toString count ++ " matches"
  v.scopeLog r.system ++ ⟨.debug, listing⟩ :: v.pageLog r.page

def listParametersLog (v : View) (r : ParameterRequest) : List LogRecord :=
  v.listLog "parameters" r.list (v.foundParameters r).items.length

def listContainersLog (v : View) (r : ListRequest) : List LogRecord :=
  v.listLog "container" r (v.foundContainers r).items.length

def listCommandsLog (v : View) (r : CommandRequest) : List LogRecord :=
  v.listLog "command" r.list (v.foundCommands r).items.length

def listAlgorithmsLog (v : View) (r : AlgorithmRequest) : List LogRecord :=
  v.listLog "algorithm" r.list (v.foundAlgorithms r).items.length

def listSystemsLog (v : View) (r : PageRequest) : List LogRecord :=
  if v.viewer.readsCatalog then v.pageLog r else []

/-- A record for every parameter that is left out, up to an id that fails the request. -/
def batchLog (v : View) : List ObjectId → List LogRecord
  | [] => []
  | id :: ids =>
    match v.parameterOf id with
    | .error _ => []
    | .ok p =>
      if v.mayRead p then v.batchLog ids
      else
        ⟨.warn, "Not providing information about parameter " ++ p.qualifiedName ++
          " because no privileges exist for " ++ v.viewer.id⟩ :: v.batchLog ids

end View

end MissionCatalog
