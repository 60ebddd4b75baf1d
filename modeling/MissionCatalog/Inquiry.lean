import MissionCatalog.Projection
import MissionCatalog.ViewLog

/-!
What a user can ask of a mission database, as one type, and the answers as JSON.
-/
namespace MissionCatalog
open Json

inductive Listing where
  | systems (query : Option String) (page : PageRequest)
  | parameters (request : ParameterRequest)
  | containers (request : ListRequest)
  | commands (request : CommandRequest)
  | algorithms (request : AlgorithmRequest)
deriving DecidableEq, Repr

inductive Inquiry where
  | summary
  | list (listing : Listing) (detail : Detail)
  | get (kind : Kind) (path : String)
  | batch (ids : List ObjectId)
deriving DecidableEq, Repr

def BatchItem.toJson (db : Database) (item : BatchItem) : Json :=
  .object [("id", item.id.toJson), ("parameter", Parameter.project db item.parameter none .summary)]

namespace View

def listing (v : View) (d : Detail) : Listing → Except QueryError Json
  | .systems query page => (v.listSystems query page).map (Page.toJson (SpaceSystem.project · d))
  | .parameters r => (v.listParameters r).map (Page.toJson (ParameterMatch.project v.db · d))
  | .containers r => (v.listContainers r).map (Page.toJson (Container.project v.db · d))
  | .commands r => (v.listCommands r).map (Page.toJson (Command.project · d))
  | .algorithms r => (v.listAlgorithms r).map (Page.toJson (Algorithm.project · d))

def listingLog (v : View) : Listing → List LogRecord
  | .systems _ page => v.listSystemsLog page
  | .parameters r => v.listParametersLog r
  | .containers r => v.listContainersLog r
  | .commands r => v.listCommandsLog r
  | .algorithms r => v.listAlgorithmsLog r

/-- A single entity with all its details. -/
def entity (v : View) (kind : Kind) (path : String) : Except QueryError Json :=
  match kind with
  | .spaceSystem => (v.getSystem path).map (SpaceSystem.project · .full)
  | .member .parameter => (v.getParameter path).map (ParameterRef.project v.db · .full)
  | .member .parameterType => (v.getParameterType path).map (ParameterType.project · .full)
  | .member .container => (v.getContainer path).map (Container.project v.db · .full)
  | .member .command => (v.getCommand path).map (Command.project · .full)
  | .member .algorithm => (v.getAlgorithm path).map (Algorithm.project · .full)

def answer (v : View) : Inquiry → Except QueryError Json
  | .summary => v.summary.map Summary.toJson
  | .list listing detail => v.listing detail listing
  | .get kind path => v.entity kind path
  | .batch ids =>
    (v.batch ids).map fun items =>
      .object [("response", .array (items.map (BatchItem.toJson v.db)))]

def answerLog (v : View) : Inquiry → List LogRecord
  | .list listing _ => v.listingLog listing
  | .batch ids => v.batchLog ids
  | _ => []

end View

end MissionCatalog
