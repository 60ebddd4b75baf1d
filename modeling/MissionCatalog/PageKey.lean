import MissionCatalog.Json.Reader
import MissionCatalog.Json.Shape
import MissionCatalog.Json.Writer
import MissionCatalog.QueryError
import MissionCatalog.Text.Characters
import MissionCatalog.Text.Digits
import MissionCatalog.Text.Split

/-!
Page keys, by which listings are sorted, and continuation tokens, which carry the key of the last item
of a page. A token is a JSON object in base 64, so that it passes through addresses unchanged.
-/
namespace MissionCatalog

structure PageKey where
  /-- A qualified name. -/
  name : String
  /-- The path of a member; an item without one comes before its members. -/
  path : Option String
deriving DecidableEq, Repr

namespace PageKey

def pathLe : Option String → Option String → Bool
  | none, _ => true
  | some _, none => false
  | some a, some b => a ≤ b

def le (a b : PageKey) : Bool :=
  a.name < b.name || (a.name == b.name && pathLe a.path b.path)

def tokenVersion : Nat := 1

def toJson (k : PageKey) : Json :=
  .object <| ("v", .ofNat tokenVersion) :: ("name", .string k.name) ::
    Json.field? "path" (k.path.map .string)

def ofJson (j : Json) : Json.Read (Nat × PageKey) := do
  let fs ← j.asRecord ["v", "name", "path"]
  let v ← fs.required "v" (Json.asNat UInt32.size)
  let name ← fs.required "name" Json.asString
  let path ← fs.optional "path" Json.asString
  return (v, { name, path })

def token (k : PageKey) : String :=
  String.ofList (Text.Base64.encode (Text.toBytes k.toJson.render))

/-- An escape that names no character. Bytes that are no text are read as this, and so are an error
just where the string that they stand in is used; the letter keeps it from pairing with an escape
before it. -/
def strayBytes : List Char := ['x', '\\', 'u', 'd', 'c', '0', '0']

/-- The JSON value that a token carries, white space around the token aside. -/
def payload? (token : String) : Option Json := do
  let bytes ← Text.Base64.decode (Text.trim token).toList
  Json.read? ((Text.ofBytes? bytes).getD (Text.ofBytesAround strayBytes bytes))

def ofToken (token : String) : Except QueryError PageKey :=
  match (payload? token).map ofJson with
  | some (.ok (v, key)) => if v = tokenVersion then .ok key else .error (.tokenVersion v)
  | _ => .error .badToken

end PageKey

end MissionCatalog
