import MissionCatalog.Config.Layers
import MissionCatalog.Http.Service
import MissionCatalog.Json.Writer

/-!
The program. It loads the configuration and the catalogs and then answers requests, one JSON object a
line with the fields `method`, `uri`, `headers` and `body`, with a line that holds `status` and `body`.
-/
namespace MissionCatalog.Main

def variableNames : List String :=
  ["MDB_SERVER__HOST", "MDB_SERVER__PORT", "MDB_QUERY__DEFAULT_LIMIT"]

def environment : IO (List (String × String)) :=
  variableNames.filterMapM fun name => do
    return (← IO.getEnv name).map (name, ·)

def fileText? (path : String) : IO (Option String) := do
  try return some (← IO.FS.readFile path) catch _ => return none

/-- The texts of the files that are there, under their paths. -/
def fileTexts (paths : List String) : IO (List (String × String)) :=
  paths.filterMapM fun path => do return (← fileText? path).map (path, ·)

def texts (fs : Json.Fields) : List (String × String) :=
  fs.filterMap fun (name, j) =>
    match j with
    | .string s => some (name, s)
    | _ => none

def request (fs : Json.Fields) : Http.Request where
  method := ((texts fs).lookup "method").getD "GET"
  address := ((texts fs).lookup "uri").getD "/"
  headers := match fs.lookup "headers" with
    | some (.object headers) => texts headers
    | _ => []
  body := ((texts fs).lookup "body").getD ""

def response (r : Http.Response) : Json :=
  .object [("status", .ofNat r.status), ("body", r.body.getD .null)]

def report (records : List LogRecord) : IO Unit := do
  for r in records do
    if r.level ≠ .debug then IO.eprintln (r.level.text ++ " " ++ r.text)

partial def serve (s : Http.Service) (input : IO.FS.Stream) : IO Unit := do
  let line ← input.getLine
  if line.isEmpty then return
  match Json.read? line with
  | some (.object fs) =>
    let r := request fs
    report (s.log r)
    IO.println (response (s.respond r)).render
  | _ => IO.println (response (.empty 400)).render
  (← IO.getStdout).flush
  serve s input

def run : IO UInt32 := do
  IO.println "MDB catalog server"
  let settings ← fileTexts ["config", "config.json"]
  match Config.load? (Config.fileText? (settings.lookup ·)) (← environment) with
  | none =>
    IO.eprintln "Error: invalid configuration"
    return 1
  | some c =>
    IO.println ("Configuration loaded: server=" ++ c.address ++ ", " ++ toString c.catalogs.length ++
      " catalog(s)")
    let withSimulator := (← IO.getEnv "LOAD_SEED_DATA") == some "true"
    if withSimulator then IO.println "Loading seed catalog..."
    let files ← fileTexts (c.catalogs.map CatalogSource.path)
    report (Http.Service.startLog (files.lookup ·) c withSimulator)
    match Http.Service.start (files.lookup ·) c withSimulator with
    | .error e =>
      IO.eprintln ("Error: " ++ ": ".intercalate e.messages)
      return 1
    | .ok s =>
      serve s (← IO.getStdin)
      return 0

end MissionCatalog.Main

def main : IO UInt32 := MissionCatalog.Main.run
