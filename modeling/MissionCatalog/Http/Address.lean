import MissionCatalog.Text.Characters
import MissionCatalog.Text.Digits
import MissionCatalog.Text.Split

/-!
Addresses of requests. An address is a path and, after a question mark, a query; a server named in
front of them and a fragment behind them do not count. In both, a percent sign with two hexadecimal
digits stands for a byte. A path is cut into its segments before the bytes are read, so that a slash
that is written this way does not separate segments.
-/
namespace MissionCatalog.Http
open Text

structure Address where
  path : List Char
  query : List Char
deriving DecidableEq, Repr

def isSchemeChar (c : Char) : Bool := c.isAlphanum || c == '+' || c == '-' || c == '.' || c == '~'

/-- The text behind the scheme and the server, where an address names them. -/
def afterServer (s : List Char) : List Char :=
  match s.dropWhile isSchemeChar with
  | ':' :: '/' :: '/' :: rest => rest.dropWhile fun c => c != '/' && c != '?'
  | _ => s

def Address.ofText (s : String) : Address :=
  let (path, query) := splitFirst '?' (afterServer (splitFirst '#' s.toList).1)
  ⟨path, query.getD []⟩

def hexByte? (high low : UInt8) : Option UInt8 := do
  let h ← hexValue? (Char.ofNat high.toNat)
  let l ← hexValue? (Char.ofNat low.toNat)
  some (.ofNat (h * 16 + l))

/-- Reads escaped bytes. A percent sign that begins no escape stands for itself. -/
def percentDecode : List UInt8 → List UInt8
  | [] => []
  | [a] => [a]
  | [a, b] => [a, b]
  | a :: b :: c :: rest =>
    match if a = 0x25 then hexByte? b c else none with
    | some byte => byte :: percentDecode rest
    | none => a :: percentDecode (b :: c :: rest)

/-- The text of a part of a path, unless its bytes are no text. -/
def pathText? (s : List Char) : Option String :=
  ofBytes? (percentDecode (toBytes (String.ofList s)))

/-- The text of a name or a value in a query, where a plus sign is a blank and bytes that are no text
are replaced. -/
def formText (s : List Char) : String :=
  let blanks := s.map fun c => if c = '+' then ' ' else c
  ofBytesLossy (percentDecode (toBytes (String.ofList blanks)))

def formPair (s : List Char) : String × String :=
  let (name, value) := splitFirst '=' s
  (formText name, formText (value.getD []))

/-- The names and values in a query. Empty pieces are passed over. -/
def formPairs (query : List Char) : List (String × String) :=
  ((splitOn '&' query).filter fun piece => !piece.isEmpty).map formPair

end MissionCatalog.Http
