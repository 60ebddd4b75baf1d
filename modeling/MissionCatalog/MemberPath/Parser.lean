import MissionCatalog.MemberPath.Basic
import MissionCatalog.Text.Split

/-!
Reading member paths. The grammar is `element+` with `element = name? subscript*`, where a name is a
dot and one or more characters other than `.`, `[`, `]` and `/`, a subscript is a number in brackets,
and only the first element may lack its name. A text is cut before every dot and opening bracket, each
piece is read as a name or a subscript, and these are grouped into elements.
-/
namespace MissionCatalog

/-- Why a text is no member path. -/
inductive PathFault where
  | badStart
  | badNameChar (c : Char)
  | emptyName
  | missingDot
  | badIndexChar (c : Char)
  | unclosedIndex
  | badIndex
deriving DecidableEq, Repr

structure PathError where
  fault : PathFault
  /-- The whole text that was to be read. -/
  suffix : String
deriving DecidableEq, Repr

def PathError.message (e : PathError) : String :=
  match e.fault with
  | .badStart => "member path must start with '.' or '[': " ++ e.suffix
  | .badNameChar c => "unexpected '" ++ c.toString ++ "' in member path " ++ e.suffix
  | .emptyName => "empty member name in " ++ e.suffix
  | .missingDot => "expected '.' in member path " ++ e.suffix
  | .badIndexChar c => "invalid array index character '" ++ c.toString ++ "' in " ++ e.suffix
  | .unclosedIndex => "unterminated array index in " ++ e.suffix
  | .badIndex => "invalid array index in " ++ e.suffix

namespace MemberPath

def startsElement (c : Char) : Bool := c == '.' || c == '['

/-- The text cut where its member path begins: at the first `.` or `[` after the last slash. -/
def splitSuffix (path : List Char) : List Char × List Char :=
  match Text.splitLast '/' path with
  | some (ns, name) =>
    (ns ++ '/' :: name.takeWhile (!startsElement ·), name.dropWhile (!startsElement ·))
  | none => (path.takeWhile (!startsElement ·), path.dropWhile (!startsElement ·))

theorem splitSuffix_append (path : List Char) :
    (splitSuffix path).1 ++ (splitSuffix path).2 = path := by
  unfold splitSuffix
  split
  · next ns name h => simp [(Text.eq_append_of_splitLast h).1]
  · simp

/-- How many bytes of UTF-8 stand before the member path, if there is one. -/
def suffixOffset? (path : String) : Option Nat :=
  match splitSuffix path.toList with
  | (_, []) => none
  | (before, _) => some (String.ofList before).utf8ByteSize

/-- The text before the first dot or opening bracket, and the pieces that begin with one: the character
and what follows it. -/
def pieces : List Char → List Char × List (Char × List Char)
  | [] => ([], [])
  | c :: s =>
    let (body, rest) := pieces s
    if startsElement c then ([], (c, body) :: rest) else (c :: body, rest)

theorem pieces_append (s : List Char) :
    (pieces s).1 ++ (pieces s).2.flatMap (fun p => p.1 :: p.2) = s := by
  induction s with
  | nil => rfl
  | cons c s ih =>
    simp only [pieces]
    split <;> simp [ih]

theorem startsElement_of_mem_pieces {s : List Char} {p : Char × List Char}
    (h : p ∈ (pieces s).2) : startsElement p.1 ∧ ∀ c ∈ p.2, ¬startsElement c := by
  have hfirst : ∀ s : List Char, ∀ c ∈ (pieces s).1, ¬startsElement c := by
    intro s
    induction s with
    | nil => simp [pieces]
    | cons c s ih =>
      simp only [pieces]
      split
      · simp
      · next hc =>
        intro x hx
        rcases List.mem_cons.1 hx with rfl | hx
        · exact hc
        · exact ih x hx
  induction s with
  | nil => simp [pieces] at h
  | cons c s ih =>
    simp only [pieces] at h
    split at h
    · next hc =>
      rcases List.mem_cons.1 h with rfl | h
      · exact ⟨hc, hfirst s⟩
      · exact ih h
    · exact ih h

inductive Part where
  | name (s : String)
  | index (i : UInt64)
deriving DecidableEq, Repr

def Part.chars : Part → List Char
  | name s => '.' :: s.toList
  | index i => (Subscript.index i).chars

def readName (body : List Char) : Except PathFault Part :=
  match body.find? fun c => c == ']' || c == '/' with
  | some c => .error (.badNameChar c)
  | none => if body.isEmpty then .error .emptyName else .ok (.name (String.ofList body))

/-- The number that stands after an opening bracket, with the closing one at its end; `next` is the
character that begins the next piece. -/
def readIndex (next : Option Char) (body : List Char) : Except PathFault Part :=
  match body.dropWhile Char.isDigit with
  | [] =>
    match next with
    | some c => .error (.badIndexChar c)
    | none => .error .unclosedIndex
  | ']' :: rest =>
    let digits := body.takeWhile Char.isDigit
    let n := Nat.ofDigitChars 10 digits 0
    if digits.isEmpty ∨ UInt64.size ≤ n then .error .badIndex
    else if rest.isEmpty then .ok (.index (.ofNat n)) else .error .missingDot
  | c :: _ => .error (.badIndexChar c)

/-- Reads the pieces from left to right, up to the first fault. -/
def readParts : List (Char × List Char) → Except PathFault (List Part)
  | [] => .ok []
  | (c, body) :: rest => do
    let part ← if c = '.' then readName body else readIndex (rest.head?.map (·.1)) body
    let parts ← readParts rest
    return part :: parts

/-- One part joins the element that follows it, or begins it: the subscripts that still lack their
name, and the elements behind them. -/
def addPart : Part → List Subscript × List PathElement → List Subscript × List PathElement
  | .index i, (index, elements) => (.index i :: index, elements)
  | .name s, (index, elements) => ([], ⟨some s, index⟩ :: elements)

/-- Subscripts belong to the name before them; those before the first name make an element of their
own. -/
def groupParts (parts : List Part) : List PathElement :=
  match parts.foldr addPart ([], []) with
  | ([], elements) => elements
  | (index, elements) => ⟨none, index⟩ :: elements

theorem chars_foldr_addPart (parts : List Part) :
    (parts.foldr addPart ([], [])).1.flatMap Subscript.chars ++
        (parts.foldr addPart ([], [])).2.flatMap PathElement.chars =
      parts.flatMap Part.chars := by
  induction parts with
  | nil => rfl
  | cons p parts ih =>
    cases p <;> simp [addPart, Part.chars, PathElement.chars, ← ih]

/-- Reads a member path such as `.a.b[3][2].c` or `[1].x`. -/
def parse (suffix : String) : Except PathError MemberPath :=
  let parts := match pieces suffix.toList with
    | ([], first :: rest) => readParts (first :: rest)
    | _ => .error .badStart
  match parts with
  | .ok parts => .ok ⟨groupParts parts⟩
  | .error fault => .error ⟨fault, suffix⟩

end MemberPath

end MissionCatalog
