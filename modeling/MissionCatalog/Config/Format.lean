import MissionCatalog.Config.Basic
import MissionCatalog.Json.Reader
import MissionCatalog.Json.Writer

/-!
The JSON form of configurations. A section may be missing as a whole and then has its standard values;
a section that is there spells out its fields.
-/
namespace MissionCatalog
open Json

def CatalogSource.toJson (s : CatalogSource) : Json :=
  .object [("instance", .string s.name), ("path", .string s.path)]

def CatalogSource.ofJson (j : Json) : Read CatalogSource := do
  let fs ← j.asRecord ["instance", "path"]
  let name ← fs.required "instance" asString
  let path ← fs.required "path" asString
  return { name, path }

namespace Config

def toJson (c : Config) : Json :=
  .object
    [("server", .object [("host", .string c.host), ("port", .ofNat c.port.toNat)]),
      ("query", .object [("default_limit", .ofNat c.defaultLimit.toNat)]),
      ("catalogs", .array (c.catalogs.map CatalogSource.toJson)),
      ("security", .object [("users", c.privileges.toJson)])]

def readServer (j : Json) : Read (String × UInt16) := do
  let fs ← j.asRecord ["host", "port"]
  let host ← fs.required "host" asString
  let port ← fs.required "port" asUInt16
  return (host, port)

def readQuery (j : Json) : Read UInt64 := do
  let fs ← j.asRecord ["default_limit"]
  fs.required "default_limit" asUInt64

def readSecurity (j : Json) : Read PrivilegeTable := do
  let fs ← j.asRecord ["users"]
  fs.withDefault "users" .empty PrivilegeTable.ofJson

def ofJson (j : Json) : Read Config := do
  let fs ← j.asRecord ["server", "query", "catalogs", "security"]
  let (host, port) ← fs.withDefault "server" (standard.host, standard.port) readServer
  let defaultLimit ← fs.withDefault "query" standard.defaultLimit readQuery
  let catalogs ← fs.list "catalogs" CatalogSource.ofJson
  let privileges ← fs.withDefault "security" .empty readSecurity
  return { host, port, defaultLimit, catalogs, privileges }

def parse? (text : String) : Option Config :=
  (Json.read? text).bind fun j => (ofJson j).toOption

end Config

end MissionCatalog
