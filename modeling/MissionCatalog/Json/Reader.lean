import MissionCatalog.Json.Basic
import MissionCatalog.Text.Digits

/-!
Reading JSON text by its standard, strictly: no comments, no trailing commas, no white space but
space, tab, line feed and carriage return. Where the text stops being JSON the reader reports what it
had read of the value by then.
-/
namespace MissionCatalog.Json
open Text

/-- What was read of a value before the text broke off. -/
inductive Cut where
  | nothing
  | array (items : List Json) (last : Cut)
  | object (fields : List (String × Json)) (last : Option (String × Cut))
deriving Inhabited

def Cut.addItem (x : Json) : Cut → Cut
  | array items last => array (x :: items) last
  | other => other

def Cut.addField (key : String) (v : Json) : Cut → Cut
  | object fields last => object ((key, v) :: fields) last
  | other => other

def addField (j : Json) (key : String) (v : Json) : Json :=
  match j with
  | object fields => object ((key, v) :: fields)
  | misnamed before => misnamed ((key, v) :: before)
  | other => other

def isSpace (c : Char) : Bool := c == ' ' || c == '\t' || c == '\n' || c == '\r'

def skipSpaces (s : List Char) : List Char := s.dropWhile isSpace

/-- A character of a string, or a UTF-16 unit that an escape names and that is no character. -/
inductive Piece where
  | char (c : Char)
  | half (unit : Nat)

def unitOf? (a b c d : Char) : Option Piece := do
  let n := ((← hexValue? a) * 16 + (← hexValue? b)) * 256 + (← hexValue? c) * 16 + (← hexValue? d)
  some (if 0xd800 ≤ n ∧ n ≤ 0xdfff then .half n else .char (Char.ofNat n))

def unescape? (c : Char) : Option Char :=
  match c with
  | '"' => some '"'
  | '\\' => some '\\'
  | '/' => some '/'
  | 'b' => some '\x08'
  | 'f' => some '\x0c'
  | 'n' => some '\n'
  | 'r' => some '\r'
  | 't' => some '\t'
  | _ => none

/-- The pieces of a string up to its closing quote, and what follows the quote. -/
def pieces : List Char → Option (List Piece × List Char)
  | [] => none
  | '"' :: rest => some ([], rest)
  | '\\' :: 'u' :: a :: b :: c :: d :: rest => do
    let p ← unitOf? a b c d
    let (ps, rest) ← pieces rest
    some (p :: ps, rest)
  | '\\' :: c :: rest => do
    let c ← unescape? c
    let (ps, rest) ← pieces rest
    some (.char c :: ps, rest)
  | c :: rest => do
    if c.toNat < 0x20 then none
    else
      let (ps, rest) ← pieces rest
      some (.char c :: ps, rest)

/-- Joins the halves of surrogate pairs; fails on a half without its partner. -/
def joinPieces : List Piece → Option (List Char)
  | [] => some []
  | .char c :: rest => (joinPieces rest).map (c :: ·)
  | .half high :: .half low :: rest =>
    if high < 0xdc00 ∧ 0xdc00 ≤ low then
      (joinPieces rest).map (Char.ofNat (0x10000 + (high - 0xd800) * 0x400 + (low - 0xdc00)) :: ·)
    else none
  | .half _ :: _ => none

/-- A string after its opening quote; its text is absent if the escapes name no text. -/
def stringBody (s : List Char) : Option (Option String × List Char) :=
  (pieces s).map fun (ps, rest) => ((joinPieces ps).map String.ofList, rest)

def natOf (digits : List Char) : Nat := Nat.ofDigitChars 10 digits 0

/-- Appends digits to a number as long as 64 bits hold it, and counts the digits that are left. -/
def appendDigits (n : Nat) : List Char → Nat × Nat
  | [] => (n, 0)
  | c :: rest =>
    let longer := natOf [c] + 10 * n
    if longer < UInt64.size then appendDigits longer rest else (n, rest.length + 1)

/-- A number with digits before and behind its point. Of those that 64 bits have no room for, the ones
before the point count as zeros and the ones behind it do not count. -/
def ofDigits (negative : Bool) (digits places : List Char) (exponent : Int) : Json :=
  let (whole, zeros) := appendDigits 0 digits
  let (significand, unread) := appendDigits whole places
  match Double.ofScaled? negative significand (zeros - (places.length - unread) + exponent) with
  | some x => real x
  | none => flawed .range

/-- A number without fraction and exponent is whole if a signed or unsigned 64-bit word holds it. -/
def ofInteger (negative : Bool) (digits : List Char) : Json :=
  let n := natOf digits
  if negative ∧ 0 < n ∧ n ≤ Int64.minValue.toInt.natAbs then int (-n)
  else if ¬negative ∧ n < UInt64.size then int n
  else ofDigits negative digits [] 0

def fraction? : List Char → Option (Option (List Char) × List Char)
  | '.' :: rest =>
    match rest.span Char.isDigit with
    | ([], _) => none
    | (digits, rest) => some (some digits, rest)
  | rest => some (none, rest)

def exponentDigits? (negative : Bool) (s : List Char) : Option (Option Int × List Char) :=
  match s.span Char.isDigit with
  | ([], _) => none
  | (digits, rest) => some (some (if negative then -(natOf digits : Int) else natOf digits), rest)

def exponent? : List Char → Option (Option Int × List Char)
  | c :: rest =>
    if c = 'e' ∨ c = 'E' then
      match rest with
      | '+' :: rest => exponentDigits? false rest
      | '-' :: rest => exponentDigits? true rest
      | rest => exponentDigits? false rest
    else some (none, c :: rest)
  | [] => some (none, [])

def unsigned? (negative : Bool) (s : List Char) : Option (Json × List Char) :=
  match s.span Char.isDigit with
  | ([], _) => none
  | ('0' :: _ :: _, _) => none
  | (digits, rest) => do
    let (frac, rest) ← fraction? rest
    let (exp, rest) ← exponent? rest
    match frac, exp with
    | none, none => some (ofInteger negative digits, rest)
    | _, _ => some (ofDigits negative digits (frac.getD []) (exp.getD 0), rest)

def number? : List Char → Option (Json × List Char)
  | '-' :: rest => unsigned? true rest
  | rest => unsigned? false rest

def maxDepth : Nat := 127

/-- A value inside `depth` arrays and objects that is one itself. -/
def atDepth (depth : Nat) (j : Json) : Json :=
  if depth < maxDepth then j else flawed .depth

mutual

def value (fuel depth : Nat) (s : List Char) : Except Cut (Json × List Char) :=
  match fuel with
  | 0 => .error .nothing
  | fuel + 1 =>
    match skipSpaces s with
    | 'n' :: 'u' :: 'l' :: 'l' :: rest => .ok (null, rest)
    | 't' :: 'r' :: 'u' :: 'e' :: rest => .ok (bool true, rest)
    | 'f' :: 'a' :: 'l' :: 's' :: 'e' :: rest => .ok (bool false, rest)
    | '"' :: rest =>
      match stringBody rest with
      | some (some text, rest) => .ok (string text, rest)
      | some (none, rest) => .ok (flawed .surrogate, rest)
      | none => .error .nothing
    | '[' :: rest =>
      match skipSpaces rest with
      | ']' :: rest => .ok (atDepth depth (array []), rest)
      | rest =>
        match items fuel (depth + 1) rest with
        | .ok (xs, rest) => .ok (atDepth depth (array xs), rest)
        | .error cut => .error cut
    | '\x7b' :: rest =>
      match skipSpaces rest with
      | '\x7d' :: rest => .ok (atDepth depth (object []), rest)
      | rest =>
        match fields fuel (depth + 1) rest with
        | .ok (j, rest) => .ok (atDepth depth j, rest)
        | .error cut => .error cut
    | rest =>
      match number? rest with
      | some result => .ok result
      | none => .error .nothing

def items (fuel depth : Nat) (s : List Char) : Except Cut (List Json × List Char) :=
  match fuel with
  | 0 => .error (.array [] .nothing)
  | fuel + 1 =>
    match value fuel depth s with
    | .error cut => .error (.array [] cut)
    | .ok (x, rest) =>
      match skipSpaces rest with
      | ']' :: rest => .ok ([x], rest)
      | ',' :: rest =>
        match items fuel depth rest with
        | .ok (xs, rest) => .ok (x :: xs, rest)
        | .error cut => .error (cut.addItem x)
      | _ => .error (.array [x] .nothing)

def fields (fuel depth : Nat) (s : List Char) : Except Cut (Json × List Char) :=
  match fuel with
  | 0 => .error (.object [] none)
  | fuel + 1 =>
    match skipSpaces s with
    | '"' :: rest =>
      match stringBody rest with
      | none => .error (.object [] none)
      | some (key, rest) =>
        let unread := key.map fun k => (k, Cut.nothing)
        match skipSpaces rest with
        | ':' :: rest =>
          match value fuel depth rest with
          | .error cut => .error (.object [] (key.map fun k => (k, cut)))
          | .ok (v, rest) =>
            match skipSpaces rest with
            | '\x7d' :: rest => .ok ((key.map fun k => object [(k, v)]).getD (misnamed []), rest)
            | ',' :: rest =>
              match fields fuel depth rest with
              | .ok (j, rest) => .ok ((key.map fun k => j.addField k v).getD (misnamed []), rest)
              | .error cut => .error ((key.map fun k => cut.addField k v).getD (.object [] none))
            | _ => .error (.object ((key.map fun k => (k, v)).toList) none)
        | _ => .error (.object [] unread)
    | _ => .error (.object [] none)

end

/-- The first value of the text. What follows it is not looked at. -/
def readFirst (text : String) : Except Cut Json :=
  match value (2 * text.length + 2) 0 text.toList with
  | .ok (j, _) => .ok j
  | .error cut => .error cut

/-- The value that the whole text spells. -/
def read? (text : String) : Option Json :=
  match value (2 * text.length + 2) 0 text.toList with
  | .ok (j, rest) => if (skipSpaces rest).isEmpty then some j else none
  | .error _ => none

end MissionCatalog.Json
