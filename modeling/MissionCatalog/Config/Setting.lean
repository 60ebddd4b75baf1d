import MissionCatalog.Double
import MissionCatalog.Json.Reader
import MissionCatalog.Text.LowerCase

/-!
Settings: trees of values out of which a configuration is put together. Setting a table joins it with
the one that is there; setting anything else replaces what is there. Names are kept in lower case.
-/
namespace MissionCatalog

inductive Setting where
  | absent
  | flag (b : Bool)
  | whole (n : Int)
  | real (x : Double)
  | text (s : String)
  | list (items : List Setting)
  | table (fields : List (String × Setting))
deriving Inhabited, Repr

/-- One step into a setting. An index below zero counts from the end of a list. -/
inductive PathStep where
  | name (s : String)
  | index (i : Int)
deriving DecidableEq, Repr

namespace Setting

def alter (name : String) (f : Option Setting → Setting) :
    List (String × Setting) → List (String × Setting)
  | [] => [(name, f none)]
  | (other, s) :: rest =>
    if other = name then (other, f (some s)) :: rest else (other, s) :: alter name f rest

/-- The fields of a table. Anything else has none, as a table will take its place. -/
def fields : Setting → List (String × Setting)
  | table fs => fs
  | _ => []

def items : Setting → List Setting
  | list xs => xs
  | _ => []

def lowerName (s : String) : String := String.ofList (Text.lower s.toList)

mutual

def put (root : Setting) (name : String) : Setting → Setting
  | table fs => table (alter (lowerName name) (fun old => putAll (old.getD (table [])) fs) root.fields)
  | absent => table (alter (lowerName name) (fun _ => absent) root.fields)
  | flag b => table (alter (lowerName name) (fun _ => flag b) root.fields)
  | whole n => table (alter (lowerName name) (fun _ => whole n) root.fields)
  | real x => table (alter (lowerName name) (fun _ => real x) root.fields)
  | text s => table (alter (lowerName name) (fun _ => text s) root.fields)
  | list xs => table (alter (lowerName name) (fun _ => list xs) root.fields)

def putAll (root : Setting) : List (String × Setting) → Setting
  | [] => root
  | (name, s) :: rest => putAll (root.put name s) rest

end

/-- Changes an item of a list, which is made longer where it is too short. There is nothing to change
in front of the first item. -/
def alterItem (i : Int) (f : Setting → Setting) (xs : List Setting) : List Setting :=
  let place := if i < 0 then xs.length + i else i
  if place < 0 then xs
  else (xs ++ List.replicate (place.toNat + 1 - xs.length) absent).modify place.toNat f

/-- Sets what stands at the end of a path, making the tables and lists on the way. -/
def putAt (value : Setting) : List PathStep → Setting → Setting
  | [], _ => value
  | [.name s], root => root.put s value
  | .name s :: rest, root =>
    table (alter (lowerName s) (fun old => putAt value rest (old.getD absent)) root.fields)
  | .index i :: rest, root => list (alterItem i (putAt value rest) root.items)

def isNameChar (c : Char) : Bool := c.isAlphanum || c == ' ' || c == '_' || c == '-'

def isGap (c : Char) : Bool := c == ' ' || c == '\t'

/-- The index that digits spell, if a signed word holds it. -/
def indexOf? (negative : Bool) (digits : List Char) : Option Int :=
  let n : Int := Nat.ofDigitChars 10 digits 0
  let i := if negative then -n else n
  if !digits.isEmpty && Int64.minValue.toInt ≤ i && i ≤ Int64.maxValue.toInt then some i else none

/-- The steps after the first one: a name after a dot, or an index in brackets with blanks around it. -/
def stepsOf (fuel : Nat) (s : List Char) : Option (List PathStep) :=
  match fuel with
  | 0 => none
  | fuel + 1 =>
    match s with
    | [] => some []
    | '.' :: s =>
      if (s.takeWhile isNameChar).isEmpty then none
      else
        (stepsOf fuel (s.dropWhile isNameChar)).map
          (.name (String.ofList (s.takeWhile isNameChar)) :: ·)
    | '[' :: s =>
      let s := s.dropWhile isGap
      let negative := s.head? == some '-'
      let s := if negative then s.tail else s
      match (s.dropWhile Char.isDigit).dropWhile isGap with
      | ']' :: rest => do
        let i ← indexOf? negative (s.takeWhile Char.isDigit)
        (stepsOf fuel rest).map (.index i :: ·)
      | _ => none
    | _ => none

/-- The path that a text spells, which begins with a name. A text that spells none is a name itself. -/
def pathOf (s : String) : List PathStep :=
  (stepsOf (s.length + 2) ('.' :: s.toList)).getD [.name s]

def layer (root : Setting) (fields : List (String × Setting)) : Setting :=
  fields.foldl (fun root (key, value) => putAt value (pathOf key) root) root

mutual

/-- A value as a setting. Whole numbers that a signed word does not hold become doubles; of two values
under one name the later counts. -/
def ofJson : Json → Setting
  | .null => absent
  | .bool b => flag b
  | .int n =>
    if Int64.minValue.toInt ≤ n ∧ n ≤ Int64.maxValue.toInt then whole n
    else real (Double.ofInt n)
  | .real x => real x
  | .string s => text s
  | .array xs => list (ofItems xs)
  | .object fs => table (ofFields [] fs)
  | .flawed _ => absent
  | .misnamed _ => absent

def ofItems : List Json → List Setting
  | [] => []
  | x :: xs => ofJson x :: ofItems xs

def ofFields (before : List (String × Setting)) : List (String × Json) → List (String × Setting)
  | [] => before
  | (key, v) :: rest => ofFields (alter key (fun _ => ofJson v) before) rest

end

def parse? (text : String) : Option (List (String × Setting)) :=
  match Json.read? text with
  | some (.object fs) => if Json.soundFields fs then some (ofFields [] fs) else none
  | _ => none

end Setting

end MissionCatalog
