import MissionCatalog.Json.Basic

/-!
Reading typed values out of JSON. A record is an object with known fields, unknown ones being passed
over, or an array of its fields in order; `null` stands for an absent value only where a value may be
absent.
-/
namespace MissionCatalog.Json

/-- What is wrong with a value that was to be used. -/
inductive Fault where
  /-- The value is flawed. -/
  | flaw
  /-- The value is of another kind, is out of range, or misses or repeats a field. -/
  | shape
deriving DecidableEq, Repr

abbrev Read (α : Type) := Except Fault α

/-- The fault of a value that is of the wrong kind for its place. -/
def unexpected : Json → Fault
  | flawed _ => .flaw
  | misnamed _ => .flaw
  | _ => .shape

def asString : Json → Read String
  | string s => .ok s
  | j => .error j.unexpected

def asBool : Json → Read Bool
  | bool b => .ok b
  | j => .error j.unexpected

def asNat (bound : Nat) : Json → Read Nat
  | int n => if 0 ≤ n ∧ n < bound then .ok n.toNat else .error .shape
  | j => .error j.unexpected

def asUInt16 (j : Json) : Read UInt16 := (j.asNat UInt16.size).map UInt16.ofNat

def asUInt32 (j : Json) : Read UInt32 := (j.asNat UInt32.size).map UInt32.ofNat

def asUInt64 (j : Json) : Read UInt64 := (j.asNat UInt64.size).map UInt64.ofNat

def asInt64 : Json → Read Int64
  | int n =>
    if Int64.minValue.toInt ≤ n ∧ n ≤ Int64.maxValue.toInt then .ok (Int64.ofInt n)
    else .error .shape
  | j => .error j.unexpected

def asList {α : Type} (read : Json → Read α) : Json → Read (List α)
  | array items => items.mapM read
  | j => .error j.unexpected

def asOption {α : Type} (read : Json → Read α) : Json → Read (Option α)
  | null => .ok none
  | j => (read j).map some

/-- One of a few named values: its name, or an object with its name as the only key. -/
def asName {α : Type} (ofName? : String → Option α) : Json → Read α
  | string s =>
    match ofName? s with
    | some a => .ok a
    | none => .error .shape
  | object [(s, null)] =>
    match ofName? s with
    | some a => .ok a
    | none => .error .shape
  | j => .error j.unexpected

abbrev Fields := List (String × Json)

/-- No key stands twice. -/
def Fields.distinct (fs : Fields) : Bool := (fs.map (·.1)).Nodup

def asRecord (names : List String) : Json → Read Fields
  | array items => if items.length ≤ names.length then .ok (names.zip items) else .error .shape
  | object fields =>
    let known := fields.filter fun f => names.contains f.1
    if Fields.distinct known then .ok known else .error .shape
  | j => .error j.unexpected

/-- The fields of a record some of which are set aside until the whole object has been read: these,
and the unknown ones, must not be flawed. It cannot be written as an array. -/
def asOpenRecord (names aside : List String) : Json → Read Fields
  | object fields =>
    if fields.any fun f => !names.contains f.1 && !f.2.sound then .error .flaw
    else
      let known := fields.filter fun f => names.contains f.1 || aside.contains f.1
      if Fields.distinct known then .ok known else .error .shape
  | j => .error j.unexpected

def Fields.required {α : Type} (fs : Fields) (key : String) (read : Json → Read α) : Read α :=
  match fs.lookup key with
  | some j => read j
  | none => .error .shape

def Fields.withDefault {α : Type} (fs : Fields) (key : String) (default : α)
    (read : Json → Read α) : Read α :=
  match fs.lookup key with
  | some j => read j
  | none => .ok default

def Fields.optional {α : Type} (fs : Fields) (key : String) (read : Json → Read α) :
    Read (Option α) :=
  fs.withDefault key none (asOption read)

def Fields.list {α : Type} (fs : Fields) (key : String) (read : Json → Read α) : Read (List α) :=
  fs.withDefault key [] (asList read)

end MissionCatalog.Json
