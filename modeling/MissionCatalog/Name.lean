import MissionCatalog.Text.Split

/-!
Qualified names. A name is the path of an entity through the tree of space systems, each segment
preceded by a slash; the root's own name is empty. The space systems above an entity are thus the
prefixes of its name that end before a slash.
-/
namespace MissionCatalog.Name
open Text

/-- The namespace under which a space system registers its members: its name, or `/` for the root. -/
def canonicalNamespace (system : String) : String :=
  if system = "" then "/" else system

/-- The qualified name of the member `name` of a space system. -/
def qualify (system name : String) : String :=
  if system = "" ∨ system = "/" then "/" ++ name else system ++ "/" ++ name

/-- A reference in a definition as a qualified name: it stands for itself if it begins with a slash,
and is otherwise relative to the space system it is made in. -/
def absolute (system reference : String) : String :=
  if reference.toList.head? = some '/' then reference else qualify system reference

def parent? (name : String) : Option String :=
  (splitLast '/' name.toList).map fun cut => String.ofList cut.1

def lastSegment (name : String) : String :=
  match splitLast '/' name.toList with
  | some (_, segment) => String.ofList segment
  | none => name

/-- The namespace and the name that a path spells; there is none without a slash or with one at the
end. -/
def split? (path : String) : Option (String × String) :=
  match splitLast '/' path.toList with
  | some (_, []) => none
  | some (ns, name) => some (String.ofList ns, String.ofList name)
  | none => none

/-- What is left of a text after what it begins with. -/
def afterStart? (start : List Char) (s : List Char) : Option (List Char) :=
  if start.isPrefixOf s then some (s.drop start.length) else none

/-- `name` lies strictly below the space system `system` in the tree. -/
def isUnder (name system : String) : Bool :=
  let system := trimEnd '/' system.toList
  if system.isEmpty then name.toList.head? == some '/'
  else
    match afterStart? system name.toList with
    | some ('/' :: _ :: _) => true
    | _ => false

def isValid (name : String) : Bool := name != "" && !name.toList.contains '/'

end MissionCatalog.Name
