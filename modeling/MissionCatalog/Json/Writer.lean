import MissionCatalog.Json.Basic
import MissionCatalog.Text.Digits

/-!
JSON text without white space. Control characters, the quote and the backslash are escaped, with a
short escape where there is one; everything else stands for itself.
-/
namespace MissionCatalog.Json
open Text

def escapeChar (c : Char) : List Char :=
  match c with
  | '"' => ['\\', '"']
  | '\\' => ['\\', '\\']
  | '\n' => ['\\', 'n']
  | '\r' => ['\\', 'r']
  | '\t' => ['\\', 't']
  | '\x08' => ['\\', 'b']
  | '\x0c' => ['\\', 'f']
  | c =>
    if c.toNat < 0x20 then
      ['\\', 'u', '0', '0', hexDigit (c.toNat / 16), hexDigit (c.toNat % 16)]
    else [c]

def stringChars (s : String) : List Char :=
  '"' :: s.toList.flatMap escapeChar ++ ['"']

def intChars : Int → List Char
  | .ofNat n => Nat.toDigits 10 n
  | .negSucc n => '-' :: Nat.toDigits 10 (n + 1)

def decimalChars (d : Decimal) : List Char :=
  (if d.negative then ['-'] else []) ++ Nat.toDigits 10 d.digits ++ 'e' :: intChars d.exponent

mutual

def chars : Json → List Char
  | null => ['n', 'u', 'l', 'l']
  | bool true => ['t', 'r', 'u', 'e']
  | bool false => ['f', 'a', 'l', 's', 'e']
  | int n => intChars n
  | real x => decimalChars x.shortest
  | string s => stringChars s
  | array [] => ['[', ']']
  | array (x :: xs) => '[' :: (x.chars ++ itemChars xs)
  | object [] => ['\x7b', '\x7d']
  | object ((k, v) :: rest) => '\x7b' :: (stringChars k ++ ':' :: (v.chars ++ fieldChars rest))
  | flawed _ => ['n', 'u', 'l', 'l']
  | misnamed _ => ['n', 'u', 'l', 'l']

/-- The further items of an array and its end. -/
def itemChars : List Json → List Char
  | [] => [']']
  | x :: xs => ',' :: (x.chars ++ itemChars xs)

/-- The further fields of an object and its end. -/
def fieldChars : List (String × Json) → List Char
  | [] => ['\x7d']
  | (k, v) :: rest => ',' :: (stringChars k ++ ':' :: (v.chars ++ fieldChars rest))

end

def render (j : Json) : String := String.ofList j.chars

end MissionCatalog.Json
