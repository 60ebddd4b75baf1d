import MissionCatalog.PageKey

/-!
Pages of a listing. The items are sorted by their keys; a page is the part of them that begins at an
offset or after the key in a token, and carries a token exactly if items remain behind it.
-/
namespace MissionCatalog

/-- Which part of a listing is asked for. -/
structure PageRequest where
  pos : Option Nat
  limit : Option Nat
  /-- A token. It counts more than an offset. -/
  next : Option String
deriving DecidableEq, Repr

def PageRequest.first : PageRequest := ⟨none, none, none⟩

structure Page (α : Type) where
  /-- The number of items on all pages. -/
  totalSize : Nat
  items : List α
  token : Option String
  /-- The space systems offered for navigation. -/
  systems : List String
deriving Repr

namespace Page

variable {α β : Type}

def map (f : α → β) (p : Page α) : Page β :=
  { totalSize := p.totalSize, items := p.items.map f, token := p.token, systems := p.systems }

def withSystems (p : Page α) (systems : List String) : Page α := { p with systems }

def sort (key : α → PageKey) (items : List α) : List α :=
  items.mergeSort fun a b => (key a).le (key b)

/-- The page that begins at the first of the sorted items `rest`. -/
def cut (key : α → PageKey) (totalSize limit : Nat) (rest : List α) : Page α :=
  let items := rest.take limit
  { totalSize
    items
    token := if limit < rest.length then items.getLast?.map fun last => (key last).token else none
    systems := [] }

/-- The items from the place that the request names. -/
def remaining (key : α → PageKey) (request : PageRequest) (sorted : List α) :
    Except QueryError (List α) :=
  match request.next with
  | some token => (PageKey.ofToken token).map fun after => sorted.dropWhile fun a => (key a).le after
  | none => .ok (sorted.drop (request.pos.getD 0))

def build (key : α → PageKey) (items : List α) (request : PageRequest) (defaultLimit : Nat) :
    Except QueryError (Page α) :=
  let limit := request.limit.getD defaultLimit
  if limit = 0 then .error .zeroLimit
  else
    let sorted := sort key items
    (remaining key request sorted).map (cut key sorted.length limit)

def toJson (item : α → Json) (p : Page α) : Json :=
  .object <| ("totalSize", .ofNat p.totalSize) :: ("items", .array (p.items.map item)) ::
    ("spaceSystems", .ofStrings p.systems) :: Json.field? "continuationToken" (p.token.map .string)

end Page

end MissionCatalog
