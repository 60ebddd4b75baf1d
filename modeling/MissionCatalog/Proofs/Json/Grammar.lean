import Mathlib
import MissionCatalog.Json.Reader

/-!
# The grammar of JSON

`Spells` says which texts begin with a JSON value, and what they leave behind it, without a word
about reading; `IsTextOf` is the same of a whole text. The readers of white space and of strings are
shown to follow it.
-/
namespace MissionCatalog.Json
open Text

/-- White space, and then the rest. -/
inductive Spaces : List Char → List Char → Prop
  | done {s : List Char} : Spaces s s
  | space {c : Char} {s rest : List Char} (blank : isSpace c) (more : Spaces s rest) :
      Spaces (c :: s) rest

/-- Four hexadecimal digits that stand for the number. -/
inductive SpellsUnit : Char → Char → Char → Char → ℕ → Prop
  | digits {a b c d : Char} {w x y z : ℕ} (ha : hexValue? a = some w) (hb : hexValue? b = some x)
      (hc : hexValue? c = some y) (hd : hexValue? d = some z) :
      SpellsUnit a b c d ((w * 16 + x) * 256 + y * 16 + z)

/-- The pieces of a string, its closing quote and then the rest. -/
inductive SpellsPieces : List Char → List Piece → List Char → Prop
  | close {rest : List Char} : SpellsPieces ('"' :: rest) [] rest
  | plain {c : Char} {s rest : List Char} {ps : List Piece} (no_quote : c ≠ '"')
      (no_escape : c ≠ '\\') (no_control : 0x20 ≤ c.toNat) (more : SpellsPieces s ps rest) :
      SpellsPieces (c :: s) (.char c :: ps) rest
  | escape {c d : Char} {s rest : List Char} {ps : List Piece} (escaped : unescape? c = some d)
      (more : SpellsPieces s ps rest) : SpellsPieces ('\\' :: c :: s) (.char d :: ps) rest
  | char {a b c d : Char} {n : ℕ} {s rest : List Char} {ps : List Piece}
      (unit : SpellsUnit a b c d n) (isChar : ¬(0xd800 ≤ n ∧ n ≤ 0xdfff))
      (more : SpellsPieces s ps rest) :
      SpellsPieces ('\\' :: 'u' :: a :: b :: c :: d :: s) (.char (Char.ofNat n) :: ps) rest
  | half {a b c d : Char} {n : ℕ} {s rest : List Char} {ps : List Piece}
      (unit : SpellsUnit a b c d n) (isHalf : 0xd800 ≤ n ∧ n ≤ 0xdfff)
      (more : SpellsPieces s ps rest) :
      SpellsPieces ('\\' :: 'u' :: a :: b :: c :: d :: s) (.half n :: ps) rest

/-- The pieces are those of the text: characters, and the two halves of a character. -/
inductive Joins : List Piece → List Char → Prop
  | nil : Joins [] []
  | char {c : Char} {ps : List Piece} {cs : List Char} (more : Joins ps cs) :
      Joins (.char c :: ps) (c :: cs)
  | pair {high low : ℕ} {ps : List Piece} {cs : List Char} (isHigh : high < 0xdc00)
      (isLow : 0xdc00 ≤ low) (more : Joins ps cs) : Joins (.half high :: .half low :: ps)
        (Char.ofNat (0x10000 + (high - 0xd800) * 0x400 + (low - 0xdc00)) :: cs)

/-- A string behind its opening quote. It has no text if its pieces are those of none. -/
inductive SpellsString : List Char → Option String → List Char → Prop
  | text {s rest cs : List Char} {ps : List Piece} (pieces : SpellsPieces s ps rest)
      (joined : Joins ps cs) : SpellsString s (some (String.ofList cs)) rest
  | flawed {s rest : List Char} {ps : List Piece} (pieces : SpellsPieces s ps rest)
      (unjoined : ∀ cs, ¬Joins ps cs) : SpellsString s none rest

def IsDigits (s : List Char) : Prop := s ≠ [] ∧ ∀ c ∈ s, c.isDigit

inductive SpellsFraction : List Char → Option (List Char) → Prop
  | absent : SpellsFraction [] none
  | places {digits : List Char} (isDigits : IsDigits digits) :
      SpellsFraction ('.' :: digits) (some digits)

inductive SpellsExponent : List Char → Option ℤ → Prop
  | absent : SpellsExponent [] none
  | unsigned {e : Char} {digits : List Char} (letter : e = 'e' ∨ e = 'E')
      (isDigits : IsDigits digits) : SpellsExponent (e :: digits) (some (natOf digits))
  | plus {e : Char} {digits : List Char} (letter : e = 'e' ∨ e = 'E')
      (isDigits : IsDigits digits) : SpellsExponent (e :: '+' :: digits) (some (natOf digits))
  | minus {e : Char} {digits : List Char} (letter : e = 'e' ∨ e = 'E')
      (isDigits : IsDigits digits) : SpellsExponent (e :: '-' :: digits) (some (-natOf digits))

/-- A number without its sign. No zero stands before other digits. -/
inductive SpellsUnsigned (negative : Bool) : List Char → Json → Prop
  | integer {digits : List Char} (isDigits : IsDigits digits)
      (no_zero : ∀ c more, digits ≠ '0' :: c :: more) :
      SpellsUnsigned negative digits (ofInteger negative digits)
  | real {digits fraction exponent : List Char} {places : Option (List Char)} {power : Option ℤ}
      (isDigits : IsDigits digits) (no_zero : ∀ c more, digits ≠ '0' :: c :: more)
      (hfraction : SpellsFraction fraction places) (hexponent : SpellsExponent exponent power)
      (isReal : places ≠ none ∨ power ≠ none) :
      SpellsUnsigned negative (digits ++ (fraction ++ exponent))
        (ofDigits negative digits (places.getD []) (power.getD 0))

inductive SpellsNumber : List Char → Json → Prop
  | positive {s : List Char} {j : Json} (unsigned : SpellsUnsigned false s j) : SpellsNumber s j
  | negative {s : List Char} {j : Json} (unsigned : SpellsUnsigned true s j) :
      SpellsNumber ('-' :: s) j

/-- The object of the fields, up to the first one whose key has no text. -/
def ofNamed : List (Option String × Json) → Json
  | [] => object []
  | (some key, v) :: rest => (ofNamed rest).addField key v
  | (none, _) :: _ => misnamed []

/-- What a text may begin with. -/
inductive Phrase where
  | value (j : Json)
  /-- The items of an array that are left, up to its closing bracket. -/
  | items (xs : List Json)
  /-- The fields of an object that are left, up to its closing bracket. -/
  | fields (fs : List (Option String × Json))

/-- Inside so many arrays and objects the text is the phrase, and then the rest. White space may
stand before a value and around punctuation. -/
inductive Spells : ℕ → List Char → Phrase → List Char → Prop
  | spaced {depth : ℕ} {c : Char} {s rest : List Char} {j : Json} (blank : isSpace c)
      (spelled : Spells depth s (.value j) rest) : Spells depth (c :: s) (.value j) rest
  | null {depth : ℕ} {rest : List Char} :
      Spells depth ('n' :: 'u' :: 'l' :: 'l' :: rest) (.value null) rest
  | boolTrue {depth : ℕ} {rest : List Char} :
      Spells depth ('t' :: 'r' :: 'u' :: 'e' :: rest) (.value (bool true)) rest
  | boolFalse {depth : ℕ} {rest : List Char} :
      Spells depth ('f' :: 'a' :: 'l' :: 's' :: 'e' :: rest) (.value (bool false)) rest
  | number {depth : ℕ} {s rest : List Char} {j : Json} (spelled : SpellsNumber s j) :
      Spells depth (s ++ rest) (.value j) rest
  | string {depth : ℕ} {s rest : List Char} {text : String}
      (spelled : SpellsString s (some text) rest) :
      Spells depth ('"' :: s) (.value (string text)) rest
  | flawedString {depth : ℕ} {s rest : List Char} (spelled : SpellsString s none rest) :
      Spells depth ('"' :: s) (.value (flawed .surrogate)) rest
  | emptyArray {depth : ℕ} {s rest : List Char} (close : Spaces s (']' :: rest)) :
      Spells depth ('[' :: s) (.value (atDepth depth (array []))) rest
  | array {depth : ℕ} {s rest : List Char} {xs : List Json}
      (spelled : Spells (depth + 1) s (.items xs) rest) :
      Spells depth ('[' :: s) (.value (atDepth depth (array xs))) rest
  | emptyObject {depth : ℕ} {s rest : List Char} (close : Spaces s ('\x7d' :: rest)) :
      Spells depth ('\x7b' :: s) (.value (atDepth depth (object []))) rest
  | object {depth : ℕ} {s rest : List Char} {fs : List (Option String × Json)}
      (spelled : Spells (depth + 1) s (.fields fs) rest) :
      Spells depth ('\x7b' :: s) (.value (atDepth depth (ofNamed fs))) rest
  | lastItem {depth : ℕ} {s t rest : List Char} {x : Json} (item : Spells depth s (.value x) t)
      (close : Spaces t (']' :: rest)) : Spells depth s (.items [x]) rest
  | item {depth : ℕ} {s t u rest : List Char} {x : Json} {xs : List Json}
      (item : Spells depth s (.value x) t) (comma : Spaces t (',' :: u))
      (more : Spells depth u (.items xs) rest) : Spells depth s (.items (x :: xs)) rest
  | lastField {depth : ℕ} {s t u v w rest : List Char} {key : Option String} {x : Json}
      (quote : Spaces s ('"' :: t)) (name : SpellsString t key u) (colon : Spaces u (':' :: v))
      (item : Spells depth v (.value x) w) (close : Spaces w ('\x7d' :: rest)) :
      Spells depth s (.fields [(key, x)]) rest
  | field {depth : ℕ} {s t u v w z rest : List Char} {key : Option String} {x : Json}
      {fs : List (Option String × Json)}
      (quote : Spaces s ('"' :: t)) (name : SpellsString t key u) (colon : Spaces u (':' :: v))
      (item : Spells depth v (.value x) w) (comma : Spaces w (',' :: z))
      (more : Spells depth z (.fields fs) rest) : Spells depth s (.fields ((key, x) :: fs)) rest

/-- The whole text is a value, with white space around it. -/
def IsTextOf (s : List Char) (j : Json) : Prop :=
  ∃ rest, Spells 0 s (.value j) rest ∧ Spaces rest []

lemma skipSpaces_cons_space {c : Char} (h : isSpace c) (s : List Char) :
    skipSpaces (c :: s) = skipSpaces s := by simp [skipSpaces, h]

@[simp] lemma skipSpaces_cons {c : Char} (h : isSpace c = false) (s : List Char) :
    skipSpaces (c :: s) = c :: s := by simp [skipSpaces, h]

lemma isSpace_of_isDigit {c : Char} (h : c.isDigit) : isSpace c = false := by
  simp only [isSpace, Bool.or_eq_false_iff, beq_eq_false_iff_ne, ne_eq]
  refine ⟨⟨⟨?_, ?_⟩, ?_⟩, ?_⟩ <;> (rintro rfl; simp [Char.isDigit] at h)

lemma spaces_skipSpaces (s : List Char) : Spaces s (skipSpaces s) := by
  induction s with
  | nil => exact .done
  | cons c s ih =>
    by_cases hc : isSpace c
    · rw [skipSpaces_cons_space hc]
      exact .space hc ih
    · rw [skipSpaces_cons (by simpa using hc)]
      exact .done

lemma Spaces.skipSpaces_eq {s rest : List Char} (h : Spaces s rest) :
    skipSpaces s = skipSpaces rest := by
  induction h with
  | done => rfl
  | space blank more ih => rw [skipSpaces_cons_space blank, ih]

lemma Spaces.length_le {s rest : List Char} (h : Spaces s rest) : rest.length ≤ s.length := by
  induction h with
  | done => exact le_rfl
  | space blank more ih => exact ih.trans (Nat.le_succ _)

lemma spaces_of_skipSpaces {s rest : List Char} (h : skipSpaces s = rest) : Spaces s rest := by
  rw [← h]
  exact spaces_skipSpaces s

lemma spaces_nil_iff {s : List Char} : Spaces s [] ↔ (skipSpaces s).isEmpty := by
  rw [List.isEmpty_iff]
  exact ⟨fun h => h.skipSpaces_eq, spaces_of_skipSpaces⟩

lemma Spaces.skipSpaces_eq_cons {c : Char} {s rest : List Char} (h : Spaces s (c :: rest))
    (hc : isSpace c = false) : skipSpaces s = c :: rest := by
  rw [h.skipSpaces_eq, skipSpaces_cons hc]

lemma unitOf?_eq_some_iff {a b c d : Char} {p : Piece} : unitOf? a b c d = some p ↔
    ∃ n, SpellsUnit a b c d n ∧
      p = if 0xd800 ≤ n ∧ n ≤ 0xdfff then .half n else .char (Char.ofNat n) := by
  simp only [unitOf?, Option.bind_eq_bind, Option.bind_eq_some_iff, Option.some.injEq]
  constructor
  · rintro ⟨w, hw, x, hx, y, hy, z, hz, rfl⟩
    exact ⟨_, .digits hw hx hy hz, rfl⟩
  · rintro ⟨_, ⟨hw, hx, hy, hz⟩, rfl⟩
    exact ⟨_, hw, _, hx, _, hy, _, hz, rfl⟩

lemma pieces_plain {c : Char} (hq : c ≠ '"') (hb : c ≠ '\\') (hc : 0x20 ≤ c.toNat)
    (s : List Char) : pieces (c :: s) = (pieces s).map fun p => (.char c :: p.1, p.2) := by
  rw [pieces.eq_def]
  split <;> simp_all [Option.map_eq_bind]

lemma pieces_escape {c d : Char} (h : unescape? c = some d) (s : List Char) :
    pieces ('\\' :: c :: s) = (pieces s).map fun p => (.char d :: p.1, p.2) := by
  have hu : c ≠ 'u' := by
    rintro rfl
    simp [unescape?] at h
  rw [pieces.eq_def]
  split <;> grind [Option.map_eq_bind]

lemma pieces_unit {a b c d : Char} {p : Piece} (h : unitOf? a b c d = some p) (s : List Char) :
    pieces ('\\' :: 'u' :: a :: b :: c :: d :: s) = (pieces s).map fun q => (p :: q.1, q.2) := by
  simp [pieces, h, Option.map_eq_bind]

lemma spellsPieces_of_pieces {s rest : List Char} {ps : List Piece}
    (h : pieces s = some (ps, rest)) : SpellsPieces s ps rest := by
  fun_induction pieces s generalizing ps with
  | case1 => simp at h
  | case2 =>
    obtain ⟨rfl, rfl⟩ : [] = ps ∧ _ = rest := by simpa using h
    exact .close
  | case3 a b c d s ih =>
    simp only [Option.bind_eq_bind, Option.bind_eq_some_iff] at h
    obtain ⟨p, hp, ⟨more, left⟩, hmore, h⟩ := h
    obtain ⟨rfl, rfl⟩ : p :: more = ps ∧ left = rest := by simpa using h
    obtain ⟨n, unit, rfl⟩ := unitOf?_eq_some_iff.1 hp
    split
    · next isHalf => exact .half unit isHalf (ih hmore)
    · next isChar => exact .char unit isChar (ih hmore)
  | case4 c s hunit ih =>
    simp only [Option.bind_eq_bind, Option.bind_eq_some_iff] at h
    obtain ⟨d, escaped, ⟨more, left⟩, hmore, h⟩ := h
    obtain ⟨rfl, rfl⟩ : .char d :: more = ps ∧ left = rest := by simpa using h
    exact .escape escaped (ih hmore)
  | case5 => simp at h
  | case6 c s no_quote _ no_escape no_control ih =>
    simp only [Option.bind_eq_bind, Option.bind_eq_some_iff] at h
    obtain ⟨⟨more, left⟩, hmore, h⟩ := h
    obtain ⟨rfl, rfl⟩ : .char c :: more = ps ∧ left = rest := by simpa using h
    refine .plain no_quote ?_ (not_lt.1 no_control) (ih hmore)
    -- A backslash at the end of the text stands before no character.
    rintro rfl
    cases s with
    | nil => simp [pieces] at hmore
    | cons x s => exact no_escape x s rfl rfl

lemma pieces_eq_some_iff {s rest : List Char} {ps : List Piece} :
    pieces s = some (ps, rest) ↔ SpellsPieces s ps rest := by
  constructor
  · exact spellsPieces_of_pieces
  · intro h
    induction h with
    | close => rfl
    | plain no_quote no_escape no_control more ih =>
      rw [pieces_plain no_quote no_escape no_control, ih, Option.map_some]
    | escape escaped more ih => rw [pieces_escape escaped, ih, Option.map_some]
    | char unit isChar more ih =>
      rw [pieces_unit (unitOf?_eq_some_iff.2 ⟨_, unit, (if_neg isChar).symm⟩), ih, Option.map_some]
    | half unit isHalf more ih =>
      rw [pieces_unit (unitOf?_eq_some_iff.2 ⟨_, unit, (if_pos isHalf).symm⟩), ih, Option.map_some]

lemma joinPieces_eq_some_iff {ps : List Piece} {cs : List Char} :
    joinPieces ps = some cs ↔ Joins ps cs := by
  constructor
  · intro h
    fun_induction joinPieces ps generalizing cs with
    | case1 =>
      obtain rfl : [] = cs := by simpa using h
      exact .nil
    | case2 c ps ih =>
      obtain ⟨more, hmore, rfl⟩ := Option.map_eq_some_iff.1 h
      exact .char (ih hmore)
    | case3 high low ps hhalves ih =>
      obtain ⟨more, hmore, rfl⟩ := Option.map_eq_some_iff.1 h
      exact .pair hhalves.1 hhalves.2 (ih hmore)
    | case4 => simp at h
    | case5 => simp at h
  · intro h
    induction h with
    | nil => rfl
    | char more ih => rw [joinPieces, ih, Option.map_some]
    | pair isHigh isLow more ih => rw [joinPieces, if_pos ⟨isHigh, isLow⟩, ih, Option.map_some]

lemma stringBody_eq_some_iff {s rest : List Char} {text : Option String} :
    stringBody s = some (text, rest) ↔ SpellsString s text rest := by
  simp only [stringBody, Option.map_eq_some_iff, Prod.exists, Prod.mk.injEq, pieces_eq_some_iff]
  constructor
  · rintro ⟨ps, _, hpieces, htext, rfl⟩
    cases hjoin : joinPieces ps with
    | none =>
      obtain rfl : none = text := by simpa [hjoin] using htext
      refine .flawed hpieces fun cs hcs => ?_
      rw [joinPieces_eq_some_iff.2 hcs] at hjoin
      cases hjoin
    | some cs =>
      obtain rfl : some (String.ofList cs) = text := by simpa [hjoin] using htext
      exact .text hpieces (joinPieces_eq_some_iff.1 hjoin)
  · intro h
    cases h with
    | text hpieces joined =>
      exact ⟨_, _, hpieces, by rw [joinPieces_eq_some_iff.2 joined, Option.map_some], rfl⟩
    | flawed hpieces unjoined =>
      refine ⟨_, _, hpieces, ?_, rfl⟩
      rw [Option.map_eq_none_iff, Option.eq_none_iff_forall_ne_some]
      exact fun cs hcs => unjoined cs (joinPieces_eq_some_iff.1 hcs)

lemma SpellsPieces.length_lt {s rest : List Char} {ps : List Piece} (h : SpellsPieces s ps rest) :
    rest.length < s.length := by
  induction h <;> simp only [List.length_cons] at * <;> omega

lemma SpellsString.length_lt {s rest : List Char} {text : Option String}
    (h : SpellsString s text rest) : rest.length < s.length := by
  cases h with
  | text hpieces joined => exact hpieces.length_lt
  | flawed hpieces unjoined => exact hpieces.length_lt

end MissionCatalog.Json
