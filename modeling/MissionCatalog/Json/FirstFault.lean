import MissionCatalog.Json.Reader
import MissionCatalog.Json.Shape

/-!
Which fault of a text comes first. A text can fail to be JSON in one place and to have the expected
shape in another; whoever reads it from the start to the end meets one of the two before the other.
An expectation judges whole values and values that break off, in the order of the text.
-/
namespace MissionCatalog.Json

structure Expectation where
  /-- The first fault of a value, if it has one. -/
  whole : Json → Option Fault
  /-- The first fault of a value that breaks off. -/
  cut : Cut → Fault

/-- The fault of a value whose first character shows its kind to be wrong. -/
def misplaced : Json → Fault
  | flawed .surrogate | flawed .range => .flaw
  | _ => .shape

def misplacedCut : Cut → Fault
  | .nothing => .flaw
  | _ => .shape

namespace Expectation

def text : Expectation where
  whole
    | string _ => none
    | j => some (misplaced j)
  cut := misplacedCut

def orNull (e : Expectation) : Expectation where
  whole
    | null => none
    | j => e.whole j
  cut := e.cut

def listOf (e : Expectation) : Expectation where
  whole
    | array items => items.findSome? e.whole
    | j => some (misplaced j)
  cut
    | .array items last => (items.findSome? e.whole).getD (e.cut last)
    | c => misplacedCut c

/-- A field of a record, and whether it may be missing. -/
structure Field where
  name : String
  optional : Bool
  value : Expectation

/-- The first fault among fields, where those in `seen` have been read before. -/
def faultInFields (expected : List Field) (seen : List String) :
    List (String × Json) → Option Fault
  | [] => if expected.all fun f => f.optional || seen.contains f.name then none else some .shape
  | (key, v) :: rest =>
    match expected.find? (·.name = key) with
    | none => faultInFields expected seen rest
    | some f =>
      if seen.contains key then some .shape
      else (f.value.whole v).or (faultInFields expected (key :: seen) rest)

/-- The first fault among fields the last of which breaks off. -/
def faultInCutFields (expected : List Field) (seen : List String) (last : Option (String × Cut)) :
    List (String × Json) → Fault
  | [] =>
    match last with
    | none => .flaw
    | some (key, c) =>
      match expected.find? (·.name = key) with
      | none => .flaw
      | some f => if seen.contains key then .shape else f.value.cut c
  | (key, v) :: rest =>
    match expected.find? (·.name = key) with
    | none => faultInCutFields expected seen last rest
    | some f =>
      if seen.contains key then .shape
      else (f.value.whole v).getD (faultInCutFields expected (key :: seen) last rest)

/-- The first fault among the fields of a record that is written as an array. A record has no further
items, so that what follows the last field is no JSON to its reader. -/
def faultInItems : List Field → List Json → Option Fault
  | [], [] => none
  | [], _ :: _ => some .flaw
  | f :: fs, [] => if (f :: fs).all (·.optional) then none else some .shape
  | f :: fs, v :: vs => (f.value.whole v).or (faultInItems fs vs)

def faultInCutItems (last : Cut) : List Field → List Json → Fault
  | [], _ => .flaw
  | f :: _, [] => f.value.cut last
  | f :: fs, v :: vs => (f.value.whole v).getD (faultInCutItems last fs vs)

def record (expected : List Field) : Expectation where
  whole
    | object fields => faultInFields expected [] fields
    | array items => faultInItems expected items
    | misnamed before => some (faultInCutFields expected [] none before)
    | j => some (misplaced j)
  cut
    | .object fields last => faultInCutFields expected [] last fields
    | .array items last => faultInCutItems last expected items
    | .nothing => .flaw

end Expectation

/-- Reads the value at the start of a text; what follows it is not looked at. -/
def readExpected {α : Type} (e : Expectation) (read : Json → Read α) (text : String) : Read α :=
  match readFirst text with
  | .error c => .error (e.cut c)
  | .ok j =>
    match e.whole j with
    | some fault => .error fault
    | none => read j

end MissionCatalog.Json
