/-!
Media types, as a header names them: a type and a subtype, which may end in a plus sign and a suffix,
and after them parameters, each behind a semicolon.
-/
namespace MissionCatalog.Http

def isTokenChar (c : Char) : Bool :=
  c.isAlphanum || "!#$%&'*+-.^_|~\x60".toList.contains c

def isQuotedChar (c : Char) : Bool := 0x1f < c.toNat && c.toNat != 0x7f

structure MediaType where
  type : List Char
  subtype : List Char
  suffix : Option (List Char)
deriving DecidableEq, Repr

namespace MediaType

/-- The rest behind a quoted value, which holds one character at least; as the first a quote is an
ordinary one. -/
def afterQuoted? : List Char → Option (List Char)
  | [] => none
  | c :: s =>
    if isQuotedChar c then
      match s.dropWhile fun c => c ≠ '"' ∧ isQuotedChar c with
      | '"' :: rest => some rest
      | _ => none
    else none

def isParameters (fuel : Nat) (s : List Char) : Bool :=
  match fuel with
  | 0 => false
  | fuel + 1 =>
    match s.dropWhile (· == ' ') with
    | [] => true
    | s =>
      if s.takeWhile isTokenChar = [] then false
      else
        match s.dropWhile isTokenChar with
        | '=' :: '"' :: rest =>
          match (afterQuoted? rest).map fun rest => rest.dropWhile (· == ' ') with
          | some [] => true
          | some (';' :: rest) => isParameters fuel rest
          | _ => false
        | '=' :: value =>
          match value.dropWhile isTokenChar with
          | [] => true
          | ';' :: rest => !(value.takeWhile isTokenChar).isEmpty && isParameters fuel rest
          | _ => false
        | _ => false

/-- The subtype and its suffix. A plus sign at the start sets off no suffix. -/
def splitSuffix (s : List Char) : List Char × Option (List Char) :=
  match s.reverse.dropWhile (· != '+') with
  | '+' :: before =>
    if before.isEmpty then (s, none)
    else (before.reverse, some ((s.reverse.takeWhile (· != '+')).reverse))
  | _ => (s, none)

/-- Reads a media type. Names are the same in upper and lower case. -/
def parse? (text : String) : Option MediaType :=
  let s := text.toList
  match s.takeWhile isTokenChar, s.dropWhile isTokenChar with
  | [], _ => none
  | type, '/' :: rest =>
    let (subtype, suffix) := splitSuffix ((rest.takeWhile isTokenChar).map Char.toLower)
    let media : MediaType := ⟨type.map Char.toLower, subtype, suffix⟩
    match rest.dropWhile isTokenChar with
    | [] => some media
    | ';' :: parameters =>
      if rest.head? ≠ some ';' ∧ isParameters (parameters.length + 1) parameters then some media
      else none
    | _ => none
  | _, _ => none

def isJson (m : MediaType) : Bool :=
  m.type = "application".toList &&
    (m.subtype = "json".toList || m.suffix = some "json".toList)

end MediaType

end MissionCatalog.Http
