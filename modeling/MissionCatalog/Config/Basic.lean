import MissionCatalog.Privilege

/-!
What a catalog server is told when it starts: where it listens, how long pages are, which catalogs it
serves, and what its users may see.
-/
namespace MissionCatalog

/-- A definition file, and the name of the instance under which it is served. -/
structure CatalogSource where
  name : String
  path : String
deriving DecidableEq, Repr

structure Config where
  host : String
  port : UInt16
  /-- The number of items on a page when a request does not say. -/
  defaultLimit : UInt64
  catalogs : List CatalogSource
  privileges : PrivilegeTable

namespace Config

/-- The configuration of a server that is told nothing. -/
def standard : Config where
  host := "127.0.0.1"
  port := 8090
  defaultLimit := 100
  catalogs := []
  privileges := .empty

def address (c : Config) : String := c.host ++ ":" ++ toString c.port.toNat

end Config

end MissionCatalog
