import MissionCatalog.Double

/-!
JSON values as they were written: the fields of an object keep their order and repetitions, a whole
number is told from one written with a fraction or an exponent, and a well-formed value that cannot be
represented is kept as `flawed` or `misnamed`, so that a reader may still pass over it.
-/
namespace MissionCatalog

/-- Why a well-formed piece of text stands for no value. -/
inductive Json.Flaw where
  /-- An escape in a string names half of a surrogate pair. -/
  | surrogate
  /-- A number is too large for a double. -/
  | range
  /-- Arrays and objects are nested too deeply. -/
  | depth
deriving DecidableEq, Repr

inductive Json where
  | null
  | bool (b : Bool)
  | int (n : Int)
  | real (x : Double)
  | string (s : String)
  | array (items : List Json)
  | object (fields : List (String × Json))
  | flawed (why : Json.Flaw)
  /-- An object with a key that names half of a surrogate pair, and the fields in front of it. -/
  | misnamed (before : List (String × Json))
deriving Inhabited, Repr

namespace Json

mutual

def depth : Json → Nat
  | array items => depthItems items + 1
  | object fields => depthFields fields + 1
  | misnamed before => depthFields before + 1
  | _ => 0

def depthItems : List Json → Nat
  | [] => 0
  | x :: xs => max x.depth (depthItems xs)

def depthFields : List (String × Json) → Nat
  | [] => 0
  | (_, v) :: rest => max v.depth (depthFields rest)

end

mutual

/-- Nothing inside is flawed. -/
def sound : Json → Bool
  | array items => soundItems items
  | object fields => soundFields fields
  | flawed _ => false
  | misnamed _ => false
  | _ => true

def soundItems : List Json → Bool
  | [] => true
  | x :: xs => x.sound && soundItems xs

def soundFields : List (String × Json) → Bool
  | [] => true
  | (_, v) :: rest => v.sound && soundFields rest

end

def ofOption : Option String → Json
  | some s => string s
  | none => null

def ofStrings (xs : List String) : Json := array (xs.map string)

def ofNat (n : Nat) : Json := int n

/-- A field that is left out when there is nothing to write. -/
def field? (key : String) (value : Option Json) : List (String × Json) :=
  match value with
  | some v => [(key, v)]
  | none => []

end Json

end MissionCatalog
