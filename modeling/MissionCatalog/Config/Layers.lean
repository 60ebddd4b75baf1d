import MissionCatalog.Config.Basic
import MissionCatalog.Config.Setting
import MissionCatalog.Text.Digits

/-!
Configurations out of layers of settings: the standard ones, those of a file, and those of the
environment. Layers may hold texts where numbers are needed and the like, so settings are converted to
what a field needs.
-/
namespace MissionCatalog

namespace Setting

/-- Words that stand for true or false, in any case. -/
def wordFlag? (s : String) : Option Bool :=
  let word := lowerName s
  if ["true", "on", "yes"].contains word then some true
  else if ["false", "off", "no"].contains word then some false
  else none

def asCount? : Setting → Option Nat
  | flag b => some b.toNat
  | whole n => if 0 ≤ n then some n.toNat else none
  | real x => some (if x.negative then 0 else min x.roundedSize (UInt64.size - 1))
  | text s => ((wordFlag? s).map Bool.toNat).or (Text.readCount? s)
  | _ => none

def asFlag? : Setting → Option Bool
  | flag b => some b
  | whole n => some (n != 0)
  | real x => some !x.isZero
  | text s => if s = "1" then some true else if s = "0" then some false else wordFlag? s
  | _ => none

def asText? : Setting → Option String
  | flag b => some (if b then "true" else "false")
  | whole n => some (toString n)
  | real x => some x.text
  | text s => some s
  | _ => none

def asList? {α : Type} (read : Setting → Option α) : Setting → Option (List α)
  | list xs => xs.mapM read
  | _ => none

/-- A name of one of a few values, in any case: a text, or the only name in a table. -/
def asName? {α : Type} (all : List α) (name : α → String) (s : Setting) : Option α :=
  let word? := match s with
    | text t => some t
    | table [(t, _)] => some t
    | _ => none
  word?.bind fun word => all.find? fun a => lowerName (name a) = lowerName word

/-- The fields of a record: those of a table, or the items of a list in order, as far as there are. -/
def asRecord? (names : List String) : Setting → Option (List (String × Setting))
  | table fs => some fs
  | list xs => some (names.zip xs)
  | _ => none

def required? {α : Type} (fs : List (String × Setting)) (name : String) (read : Setting → Option α) :
    Option α := (fs.lookup name).bind read

def withDefault? {α : Type} (fs : List (String × Setting)) (name : String) (default : α)
    (read : Setting → Option α) : Option α :=
  match fs.lookup name with
  | some s => read s
  | none => some default

end Setting

open Setting

def Grant.ofSetting? (s : Setting) : Option Grant := do
  let fs ← s.asRecord? ["kind", "pattern"]
  let kind ← required? fs "kind" (asName? ObjectPrivilege.all ObjectPrivilege.text)
  let pattern ← required? fs "pattern" asText?
  return { kind, pattern }

def UserPrivileges.ofSetting? (s : Setting) : Option UserPrivileges := do
  let fs ← s.asRecord? ["superuser", "system", "objects"]
  let superuser ← withDefault? fs "superuser" false asFlag?
  let system ← withDefault? fs "system" [] (asList? (asName? [.readCatalog] SystemPrivilege.text))
  let objects ← withDefault? fs "objects" [] (asList? Grant.ofSetting?)
  return { superuser, system := system.eraseDups, objects }

def PrivilegeTable.ofSetting? : Setting → Option PrivilegeTable
  | .table fs =>
    fs.foldlM (fun t (user, s) => (UserPrivileges.ofSetting? s).map (t.put user)) PrivilegeTable.empty
  | _ => none

def CatalogSource.ofSetting? (s : Setting) : Option CatalogSource := do
  let fs ← s.asRecord? ["instance", "path"]
  let name ← required? fs "instance" asText?
  let path ← required? fs "path" asText?
  return { name, path }

namespace Config

def standardSettings : List (String × Setting) :=
  [("server", .table [("host", .text standard.host), ("port", .whole standard.port.toNat)]),
    ("query", .table [("default_limit", .whole standard.defaultLimit.toNat)])]

def serverOfSetting? (s : Setting) : Option (String × UInt16) := do
  let fs ← s.asRecord? ["host", "port"]
  let host ← required? fs "host" asText?
  let port ← required? fs "port" asCount?
  if port < UInt16.size then return (host, .ofNat port) else none

def queryOfSetting? (s : Setting) : Option UInt64 := do
  let fs ← s.asRecord? ["default_limit"]
  (required? fs "default_limit" asCount?).map .ofNat

def securityOfSetting? (s : Setting) : Option PrivilegeTable := do
  let fs ← s.asRecord? ["users"]
  withDefault? fs "users" .empty PrivilegeTable.ofSetting?

def ofSetting? (s : Setting) : Option Config := do
  let fs ← s.asRecord? ["server", "query", "catalogs", "security"]
  let (host, port) ← withDefault? fs "server" (standard.host, standard.port) serverOfSetting?
  let defaultLimit ← withDefault? fs "query" standard.defaultLimit queryOfSetting?
  let catalogs ← withDefault? fs "catalogs" [] (asList? CatalogSource.ofSetting?)
  let privileges ← withDefault? fs "security" .empty securityOfSetting?
  return { host, port, defaultLimit, catalogs, privileges }

/-- Two underscores in the name of a variable stand for a step into a table. -/
def dotted : List Char → List Char
  | '_' :: '_' :: rest => '.' :: dotted rest
  | c :: rest => c :: dotted rest
  | [] => []

/-- The setting that a variable of the environment makes, if its name begins with `MDB_`. -/
def ofVariable? (name value : String) : Option (String × Setting) :=
  match Text.lower name.toList with
  | 'm' :: 'd' :: 'b' :: '_' :: key => some (String.ofList (dotted key), .text value)
  | _ => none

/-- The text of the configuration file, given the texts of all files. A file `config` takes the place of
`config.json`, and its format is not known. -/
def fileText? (textOf? : String → Option String) : Option String :=
  if (textOf? "config").isSome then none else textOf? "config.json"

/-- The configuration that a server starts with, given the text of its file, if it has one, and the
variables of its environment. What stands in the environment counts most. -/
def load? (file : Option String) (environment : List (String × String)) : Option Config := do
  let inFile ← file.elim (some []) Setting.parse?
  let inEnvironment := environment.filterMap fun (name, value) => ofVariable? name value
  ofSetting? <| [standardSettings, inFile, inEnvironment].foldl Setting.layer (.table [])

end Config

end MissionCatalog
