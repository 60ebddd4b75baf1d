import MissionCatalog.Text.Characters

/-!
Cutting text at a separator, and into words at white space. Every cut at a separator is lossless: the
parts and the separator give the text back.
-/
namespace MissionCatalog.Text

/-- The parts before and after the last `c`. -/
def splitLast (c : Char) : List Char → Option (List Char × List Char)
  | [] => none
  | x :: xs =>
    match splitLast c xs with
    | some (before, after) => some (x :: before, after)
    | none => if x = c then some ([], xs) else none

theorem splitLast_eq_none_iff {c : Char} {s : List Char} : splitLast c s = none ↔ c ∉ s := by
  induction s with
  | nil => simp [splitLast]
  | cons x xs ih =>
    simp only [splitLast]
    split
    · next h => simp [← Decidable.not_iff_not.2 ih, h]
    · next h =>
      by_cases hx : x = c
      · simp [hx]
      · simp [hx, ih.1 h, Ne.symm hx]

theorem eq_append_of_splitLast {c : Char} {s before after : List Char}
    (h : splitLast c s = some (before, after)) : s = before ++ c :: after ∧ c ∉ after := by
  induction s generalizing before after with
  | nil => simp [splitLast] at h
  | cons x xs ih =>
    simp only [splitLast] at h
    split at h
    · next b a hs =>
      obtain ⟨rfl, rfl⟩ : x :: b = before ∧ a = after := by simpa using h
      obtain ⟨hxs, ha⟩ := ih hs
      exact ⟨by rw [hxs]; rfl, ha⟩
    · next hs =>
      split at h
      · next hx =>
        obtain ⟨rfl, rfl⟩ : [] = before ∧ xs = after := by simpa using h
        exact ⟨by simp [hx], splitLast_eq_none_iff.1 hs⟩
      · simp at h

theorem splitLast_append {c : Char} {before after : List Char} (h : c ∉ after) :
    splitLast c (before ++ c :: after) = some (before, after) := by
  induction before with
  | nil => simp [splitLast, splitLast_eq_none_iff.2 h]
  | cons x xs ih => simp [splitLast, ih]

/-- The text without the run of `c` at its end. -/
def trimEnd (c : Char) (s : List Char) : List Char :=
  (s.reverse.dropWhile (· == c)).reverse

/-- `part` stands somewhere in the text, unbroken. -/
def occurs (part : List Char) : List Char → Bool
  | [] => part.isEmpty
  | x :: xs => part.isPrefixOf (x :: xs) || occurs part xs

theorem occurs_iff {part s : List Char} : occurs part s ↔ part <:+: s := by
  induction s with
  | nil => simp [occurs]
  | cons x xs ih => simp [occurs, ih, List.infix_cons_iff]

/-- The pieces of the text between the places where `c` stands, the empty ones included. -/
def splitOn (c : Char) (s : List Char) : List (List Char) :=
  match s with
  | [] => [[]]
  | x :: xs =>
    if x = c then [] :: splitOn c xs
    else
      match splitOn c xs with
      | [] => [[x]]
      | piece :: pieces => (x :: piece) :: pieces

/-- The text before the first `c`, and what follows it if there is one. -/
def splitFirst (c : Char) (s : List Char) : List Char × Option (List Char) :=
  match s.dropWhile (· ≠ c) with
  | [] => (s, none)
  | _ :: after => (s.takeWhile (· ≠ c), some after)

/-- One character joins the word that follows it, or ends it. -/
def addToWords (c : Char) : List Char × List (List Char) → List Char × List (List Char)
  | (word, words) =>
    if isBlank c then ([], if word.isEmpty then words else word :: words) else (c :: word, words)

def words (s : List Char) : List (List Char) :=
  match s.foldr addToWords ([], []) with
  | (word, words) => if word.isEmpty then words else word :: words

def trim (s : String) : String :=
  String.ofList ((s.toList.dropWhile isBlank).reverse.dropWhile isBlank).reverse

end MissionCatalog.Text
