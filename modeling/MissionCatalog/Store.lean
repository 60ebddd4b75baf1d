import MissionCatalog.Config.Basic
import MissionCatalog.Database.Format
import MissionCatalog.Directory
import MissionCatalog.Simulator
import MissionCatalog.ViewLog

/-!
The databases that are served, under the names of their instances. A store is a value: a database that
was taken from it stays as it was when another is put in its place.
-/
namespace MissionCatalog

structure Store where
  catalogs : Directory Database

namespace Store

def empty : Store := ⟨.empty⟩

def get? (s : Store) (name : String) : Option Database := s.catalogs.get? name

def insert (s : Store) (name : String) (db : Database) : Store := ⟨s.catalogs.put name db⟩

def instances (s : Store) : List String := s.catalogs.names

def size (s : Store) : Nat := s.catalogs.size

/-- Loads the catalogs that a configuration names, up to the first that cannot be loaded. -/
def load (textOf? : String → Option String) (s : Store) (sources : List CatalogSource) :
    Except LoadError Store :=
  sources.foldlM (fun s source => (Database.load textOf? source.path).map (s.insert source.name)) s

def addSimulator (s : Store) : Except LoadError Store :=
  (Simulator.database.map (s.insert Simulator.instanceName)).mapError .build

def loadedRecord (source : CatalogSource) (db : Database) : LogRecord :=
  ⟨.info, "Loaded catalog '" ++ db.name ++ "' for instance " ++ source.name ++ " from " ++
    source.path ++ " (" ++ toString (db.table .parameter).size ++ " parameters)"⟩

/-- A record for every catalog that is loaded. -/
def loadLog (textOf? : String → Option String) : List CatalogSource → List LogRecord
  | [] => []
  | source :: sources =>
    match Database.load textOf? source.path with
    | .ok db => loadedRecord source db :: loadLog textOf? sources
    | .error _ => []

def simulatorLog : List LogRecord :=
  match Simulator.database with
  | .ok db =>
    [⟨.info, "Loaded seed catalog '" ++ db.name ++ "' as instance " ++ Simulator.instanceName⟩]
  | .error _ => []

end Store

end MissionCatalog
