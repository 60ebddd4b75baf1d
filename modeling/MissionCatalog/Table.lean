import MissionCatalog.BuildError
import MissionCatalog.Directory
import MissionCatalog.Entity

/-!
Tables of entities of one kind. The entities stand under their qualified names, and an index leads
from their keys to these names. No two entities have the same name and none has a key of another,
because `insert` refuses an entity that would break this.
-/
namespace MissionCatalog

/-- Qualified names under keys: by the namespace of the key, and there by its name. -/
structure KeyIndex where
  spaces : Directory (Directory String)
deriving Repr

namespace KeyIndex

def empty : KeyIndex := ⟨.empty⟩

def get? (index : KeyIndex) (key : Key) : Option String :=
  (index.spaces.get? key.space).bind (·.get? key.name)

def put (index : KeyIndex) (key : Key) (owner : String) : KeyIndex :=
  let names := (index.spaces.get? key.space).getD .empty
  ⟨index.spaces.put key.space (names.put key.name owner)⟩

/-- Puts an entity of that kind and name under the key. It may have the key already, but no other
entity may. -/
def claim (kind : Kind) (owner : String) (index : KeyIndex) (key : Key) :
    Except BuildError KeyIndex :=
  match index.get? key with
  | some other =>
    if other = owner then .ok (index.put key owner) else .error (.sharedKey kind key other owner)
  | none => .ok (index.put key owner)

end KeyIndex

structure Table (α : Type) where
  byName : Directory α
  byKey : KeyIndex
deriving Repr

namespace Table

variable {α : Type}

def empty : Table α := ⟨.empty, .empty⟩

def get? (t : Table α) (name : String) : Option α := t.byName.get? name

def getByKey? (t : Table α) (key : Key) : Option α := (t.byKey.get? key).bind t.byName.get?

def getById? (t : Table α) (id : ObjectId) : Option α :=
  match id.key? with
  | some key => t.getByKey? key
  | none => t.get? id.name

def contains (t : Table α) (name : String) : Bool := (t.get? name).isSome

def sorted (t : Table α) : List α := t.byName.values

def size (t : Table α) : Nat := t.byName.size

def isEmpty (t : Table α) : Bool := t.byName.entries.isEmpty

def insert [Declared α] (t : Table α) (e : α) : Except BuildError (Table α) :=
  let kind := Declared.kind α
  let name := Declared.qualifiedName e
  if t.contains name then .error (.duplicate kind name)
  else
    (Declared.keys e).foldlM (KeyIndex.claim kind name) t.byKey |>.map fun byKey =>
      ⟨t.byName.put name e, byKey⟩

theorem length_sorted (t : Table α) : t.sorted.length = t.size := List.length_map _

end Table

end MissionCatalog
