import MissionCatalog.Http.Address
import MissionCatalog.Http.MediaType
import MissionCatalog.Json.Basic
import MissionCatalog.Privilege
import MissionCatalog.Text.Split

/-!
Requests and responses.
-/
namespace MissionCatalog.Http

structure Request where
  method : String
  address : String
  headers : List (String × String)
  body : String
deriving Repr

namespace Request

/-- The value of a header, whose name may be in upper or lower case, if it is of ASCII characters that
can be seen, blanks and tabs. -/
def header? (r : Request) (name : String) : Option String := do
  let (_, value) ← r.headers.find? fun h => h.1.toList.map Char.toLower = name.toList
  if value.toList.all fun c => c = '\t' ∨ (0x20 ≤ c.toNat ∧ c.toNat ≤ 0x7e) then some value else none

def user (r : Request) : String :=
  match (r.header? "x-user-id").map Text.trim with
  | some user => if user = "" then anonymous else user
  | none => anonymous

def declaresJson (r : Request) : Bool :=
  ((r.header? "content-type").bind MediaType.parse?).any MediaType.isJson

end Request

structure Response where
  status : Nat
  /-- Absent if the body is empty or of plain text. -/
  body : Option Json
deriving Repr

namespace Response

def empty (status : Nat) : Response := ⟨status, none⟩

def ok (body : Json) : Response := ⟨200, some body⟩

def error (status : Nat) (message : String) : Response :=
  ⟨status, some (.object [("error", .string message)])⟩

end Response

end MissionCatalog.Http
