import MissionCatalog.Http.Address
import MissionCatalog.Kind

/-!
Which paths lead where. What a route takes from its path is still percent-encoded.
-/
namespace MissionCatalog.Http
open Text

inductive Collection where
  | systems
  | parameters
  | containers
  | commands
  | algorithms
deriving DecidableEq, Repr

inductive Route where
  | health
  | instances
  | summary (name : List Char)
  | listing (name : List Char) (collection : Collection)
  | entity (name : List Char) (kind : Kind) (path : List Char)
  | batch (name : List Char)
deriving DecidableEq, Repr

def Collection.ofSegment? (segment : List Char) : Option Collection :=
  match String.ofList segment with
  | "space-systems" => some .systems
  | "parameters" => some .parameters
  | "containers" => some .containers
  | "commands" => some .commands
  | "algorithms" => some .algorithms
  | _ => none

def Collection.kind : Collection → Kind
  | systems => .spaceSystem
  | parameters => .member .parameter
  | containers => .member .container
  | commands => .member .command
  | algorithms => .member .algorithm

namespace Route

/-- The kind of the entities that stand below a segment. Types of parameters have no listing. -/
def kindOfSegment? (segment : List Char) : Option Kind :=
  if segment = "parameter-types".toList then some (.member .parameterType)
  else (Collection.ofSegment? segment).map Collection.kind

def below? (name : List Char) : List (List Char) → Option Route
  | [] => if name.isEmpty then none else some (.summary name)
  | [segment] =>
    if segment = "batch-get-parameters".toList then some (.batch name)
    else (Collection.ofSegment? segment).map (.listing name)
  | segment :: rest =>
    match List.intercalate ['/'] rest with
    | [] => none
    | path => (kindOfSegment? segment).map fun kind => .entity name kind path

def ofPath? (path : List Char) : Option Route :=
  match splitOn '/' path with
  | [[], root] => if root = "health".toList then some .health else none
  | [] :: api :: mdb :: rest =>
    if api = "api".toList ∧ mdb = "mdb".toList then
      match rest with
      | [] => some .instances
      | name :: rest => below? name rest
    else none
  | _ => none

/-- A request with this method is answered. What can be read can be asked for without its body. -/
def allows (r : Route) (method : String) : Bool :=
  match r with
  | .batch _ => method == "POST"
  | _ => method == "GET" || method == "HEAD"

end Route

end MissionCatalog.Http
