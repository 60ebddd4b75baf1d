/-!
Values under names. A directory is kept in ascending order of its names, so that listing it needs no
sorting, and a name has one value: what is put under it last.
-/
namespace MissionCatalog

structure Directory (α : Type) where
  entries : List (String × α)
deriving Repr

namespace Directory

variable {α : Type}

def empty : Directory α := ⟨[]⟩

def get? (d : Directory α) (name : String) : Option α := d.entries.lookup name

/-- The value goes before the first greater name, in place of one under the same name. -/
def putInto (name : String) (a : α) : List (String × α) → List (String × α)
  | [] => [(name, a)]
  | (other, b) :: rest =>
    if other < name then (other, b) :: putInto name a rest
    else if other = name then (name, a) :: rest
    else (name, a) :: (other, b) :: rest

def put (d : Directory α) (name : String) (a : α) : Directory α := ⟨putInto name a d.entries⟩

def map {β : Type} (f : α → β) (d : Directory α) : Directory β :=
  ⟨d.entries.map fun entry => (entry.1, f entry.2)⟩

def names (d : Directory α) : List String := d.entries.map (·.1)

def values (d : Directory α) : List α := d.entries.map (·.2)

def size (d : Directory α) : Nat := d.entries.length

theorem lookup_cons_eq (n : String) (a : α) (entries : List (String × α)) (other : String) :
    ((n, a) :: entries).lookup other = if other = n then some a else entries.lookup other := by
  rw [List.lookup_cons]
  by_cases h : other = n
  · simp [h]
  · rw [beq_false_of_ne h, if_neg h]

theorem lookup_putInto (name : String) (a : α) (entries : List (String × α)) (other : String) :
    (putInto name a entries).lookup other =
      if other = name then some a else entries.lookup other := by
  induction entries with
  | nil => rw [putInto, lookup_cons_eq]
  | cons e rest ih =>
    obtain ⟨n, b⟩ := e
    simp only [putInto]
    split
    · next hlt =>
      have : n ≠ name := fun h => String.lt_irrefl _ (h ▸ hlt)
      grind [lookup_cons_eq]
    · split <;> grind [lookup_cons_eq]

theorem get?_put (d : Directory α) (name : String) (a : α) (other : String) :
    (d.put name a).get? other = if other = name then some a else d.get? other :=
  lookup_putInto name a d.entries other

theorem get?_map {β : Type} (f : α → β) (d : Directory α) (name : String) :
    (d.map f).get? name = (d.get? name).map f := by
  obtain ⟨entries⟩ := d
  simp only [get?, map]
  induction entries with
  | nil => rfl
  | cons e rest ih =>
    obtain ⟨n, a⟩ := e
    rw [List.map_cons, lookup_cons_eq, lookup_cons_eq, ih]
    split <;> rfl

end Directory

end MissionCatalog
