import MissionCatalog.Details
import MissionCatalog.MemberPath.Basic
import MissionCatalog.Text.LowerCase
import MissionCatalog.Text.Split

/-!
Free-text search. A query is a list of terms, and finds what has every term in its name, its
description or one of its aliases, whatever the case of the letters. In a structured parameter it also
finds members by the path to them.
-/
namespace MissionCatalog
open Text

structure Matcher where
  /-- The terms in lower case. -/
  terms : List (List Char)

namespace Matcher

def ofQuery (q : String) : Matcher := ⟨(words q.toList).map lower⟩

def isEmpty (m : Matcher) : Bool := m.terms.isEmpty

def inText (m : Matcher) (s : String) : Bool :=
  let s := lower s.toList
  m.terms.all (occurs · s)

def someInText (m : Matcher) (s : String) : Bool :=
  let s := lower s.toList
  m.terms.any (occurs · s)

/-- Every term occurs in the name, the description or an alias. -/
def inHead (m : Matcher) (h : Head) : Bool :=
  let texts := (h.name :: h.description.toList ++ h.aliases.map (·.name)).map fun s => lower s.toList
  m.terms.all fun term => texts.any (occurs term)

/-- A member is found if some term occurs in its own name and all occur in its path. -/
def inMember (m : Matcher) (name : String) (path : MemberPath) : Bool :=
  m.someInText name && m.inText path.text

end Matcher

/-- The path with further subscripts at its end. -/
def subscriptLast (subscripts : List Subscript) : List PathElement → List PathElement
  | [] => [⟨none, subscripts⟩]
  | [e] => [{ e with index := e.index ++ subscripts }]
  | e :: es => e :: subscriptLast subscripts es

mutual

/-- Every named member inside a type that stands at the end of the path `before`, with its own path:
a member comes before the members inside it. -/
def DataType.namedMembers (before : List PathElement) : DataType → List (String × MemberPath)
  | .aggregate members => namedMembersOfList before members
  | .array dimensions element =>
    element.namedMembers (subscriptLast (List.replicate dimensions.toNat .any) before)
  | _ => []

def DataType.namedMembersOfList (before : List PathElement) :
    List Member → List (String × MemberPath)
  | [] => []
  | ⟨name, _, type⟩ :: rest =>
    let path := before ++ [⟨some name, []⟩]
    (name, ⟨path⟩) :: (type.namedMembers path ++ namedMembersOfList before rest)

end

/-- The paths of the members that the matcher finds. Without terms it finds none. -/
def Matcher.membersOf (m : Matcher) (t : DataType) : List MemberPath :=
  if m.isEmpty then []
  else ((t.namedMembers []).filter fun (name, path) => m.inMember name path).map (·.2)

end MissionCatalog
