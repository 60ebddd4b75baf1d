import MissionCatalog.DataType.Basic

/-!
Paths to a member inside a parameter's value: names of aggregate members, each after a dot, and
subscripts of array elements in brackets.
-/
namespace MissionCatalog

inductive Subscript where
  | index (i : UInt64)
  /-- Every element. A search reports it for the arrays it passes through. -/
  | any
deriving DecidableEq, Repr

structure PathElement where
  name : Option String
  index : List Subscript
deriving DecidableEq, Repr

structure MemberPath where
  elements : List PathElement
deriving DecidableEq, Repr

def Subscript.chars : Subscript → List Char
  | index i => '[' :: Nat.toDigits 10 i.toNat ++ [']']
  | any => ['[', ']']

def PathElement.chars (e : PathElement) : List Char :=
  (match e.name with
    | some name => '.' :: name.toList
    | none => []) ++ e.index.flatMap Subscript.chars

namespace MemberPath

def chars (p : MemberPath) : List Char := p.elements.flatMap PathElement.chars

def text (p : MemberPath) : String := String.ofList p.chars

def lastName? (p : MemberPath) : Option String := p.elements.reverse.findSome? (·.name)

/-- The type that one element of a path leads to. All dimensions of an array take a subscript. -/
def stepType? (e : PathElement) (t : DataType) : Option DataType := do
  let t ←
    match e.name with
    | some name => (t.member? name).map (·.type)
    | none => some t
  if e.index.isEmpty then some t
  else
    match t with
    | .array dimensions element => if dimensions.toNat = e.index.length then some element else none
    | _ => none

/-- The type at the end of the path, if the path exists in the type. -/
def typeAt? (p : MemberPath) (t : DataType) : Option DataType :=
  p.elements.foldlM (fun t e => stepType? e t) t

def fits (p : MemberPath) (t : DataType) : Bool := (p.typeAt? t).isSome

end MemberPath

end MissionCatalog
