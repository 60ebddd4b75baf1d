import MissionCatalog.Http.Route
import MissionCatalog.Inquiry
import MissionCatalog.Text.Digits
import MissionCatalog.Text.Split

/-!
Listings as queries of addresses ask for them. Names that a listing does not know are passed over, and
one that it knows may stand only once.
-/
namespace MissionCatalog.Http
open Text

abbrev Form := List (String × String)

namespace Form

def restrict? (names : List String) (form : Form) : Option Form :=
  let known := form.filter fun p => names.contains p.1
  if (known.map (·.1)).Nodup then some known else none

/-- The value under a name, if it is there; fails if it cannot be read. -/
def field? {α : Type} (form : Form) (name : String) (read : String → Option α) : Option (Option α) :=
  match form.lookup name with
  | none => some none
  | some value => (read value).map some

def readFlag? (s : String) : Option Bool :=
  match s with
  | "true" => some true
  | "false" => some false
  | _ => none

def text? (form : Form) (name : String) : Option String := form.lookup name

def flag? (form : Form) (name : String) : Option Bool :=
  (form.field? name readFlag?).map (·.getD false)

/-- The pieces of a list between commas, without the blanks around them and without empty ones. -/
def listed (s : String) : List String :=
  ((splitOn ',' s.toList).map fun piece => trim (String.ofList piece)).filter (· ≠ "")

def pageRequest? (form : Form) : Option PageRequest := do
  let pos ← form.field? "pos" readCount?
  let limit ← form.field? "limit" readCount?
  return { pos, limit, next := form.text? "next" }

def listRequest? (form : Form) : Option ListRequest := do
  let page ← form.pageRequest?
  return { system := form.text? "system", query := form.text? "q", page }

/-- The names that all listings know. -/
def commonNames : List String := ["system", "q", "pos", "limit", "next", "details"]

def detail? (form : Form) : Option Detail := (form.flag? "details").map Detail.ofListing

end Form

namespace Collection

def formNames : Collection → List String
  | parameters => Form.commonNames ++ ["types", "source", "searchMembers"]
  | commands => Form.commonNames ++ ["noAbstract"]
  | algorithms => Form.commonNames ++ ["scope"]
  | _ => Form.commonNames

def listing? (c : Collection) (form : Form) : Option Listing := do
  let list ← form.listRequest?
  match c with
  | systems => return .systems list.query list.page
  | parameters =>
    let source ← form.field? "source" DataSource.ofText?
    let searchMembers ← form.flag? "searchMembers"
    let types := (form.text? "types").elim [] Form.listed
    return .parameters { list, types, source, searchMembers }
  | containers => return .containers list
  | commands =>
    let noAbstract ← form.flag? "noAbstract"
    return .commands { list, noAbstract }
  | algorithms =>
    let scope ← form.field? "scope" AlgorithmScope.ofText?
    return .algorithms { list, scope }

def inquiry? (c : Collection) (query : List Char) : Option Inquiry := do
  let form ← Form.restrict? c.formNames (formPairs query)
  let listing ← c.listing? form
  let detail ← form.detail?
  return .list listing detail

end Collection

end MissionCatalog.Http
