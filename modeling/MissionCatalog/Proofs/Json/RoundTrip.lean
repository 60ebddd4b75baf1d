import MissionCatalog.Json.Writer
import MissionCatalog.Proofs.Json.Reading

/-!
# Reading back written JSON

`read?` gives back what `render` wrote, for every value without fractions whose numbers fit in 64
bits and which is not nested too deeply, because what is written spells the value.
-/
namespace MissionCatalog.Json
open Text

lemma spellsUnit_hexDigit {n : ℕ} (h : n < 0x20) :
    SpellsUnit '0' '0' (hexDigit (n / 16)) (hexDigit (n % 16)) n := by
  have hn : (0 * 16 + 0) * 256 + n / 16 * 16 + n % 16 = n := by omega
  have h0 : hexValue? '0' = some 0 := by decide
  have hunit := SpellsUnit.digits h0 h0 (hexValue?_hexDigit (show n / 16 < 16 by omega))
    (hexValue?_hexDigit (show n % 16 < 16 by omega))
  rwa [hn] at hunit

lemma SpellsPieces.cons_escapeChar {s rest : List Char} {ps : List Piece} (c : Char)
    (h : SpellsPieces s ps rest) : SpellsPieces (escapeChar c ++ s) (.char c :: ps) rest := by
  unfold escapeChar
  split
  case h_8 no_quote no_escape _ _ _ _ _ =>
    split
    · next hc =>
      have isChar : ¬(0xd800 ≤ c.toNat ∧ c.toNat ≤ 0xdfff) := by omega
      simpa using SpellsPieces.char (spellsUnit_hexDigit hc) isChar h
    · next hc => exact .plain no_quote no_escape (not_lt.1 hc) h
  all_goals exact .escape rfl h

lemma spellsPieces_flatMap (cs rest : List Char) :
    SpellsPieces (cs.flatMap escapeChar ++ '"' :: rest) (cs.map .char) rest := by
  induction cs with
  | nil => exact .close
  | cons c cs ih =>
    rw [List.flatMap_cons, List.append_assoc]
    exact ih.cons_escapeChar c

lemma joins_map_char (cs : List Char) : Joins (cs.map .char) cs := by
  induction cs with
  | nil => exact .nil
  | cons c cs ih => exact .char ih

lemma spellsString_escaped (s : String) (rest : List Char) :
    SpellsString (s.toList.flatMap escapeChar ++ '"' :: rest) (some s) rest := by
  simpa using SpellsString.text (spellsPieces_flatMap s.toList rest) (joins_map_char s.toList)

/-- Only zero is written with a zero in front. -/
lemma toDigits_ne_zero_cons (n : ℕ) (c : Char) (cs : List Char) :
    Nat.toDigits 10 n ≠ '0' :: c :: cs := by
  induction n using Nat.strong_induction_on generalizing c cs with
  | _ n ih =>
    rw [Nat.toDigits_eq_if (by decide)]
    split
    · simp
    · next h =>
      intro he
      cases hd : Nat.toDigits 10 (n / 10) with
      | nil => exact Nat.toDigits_ne_nil hd
      | cons z zs =>
        rw [hd] at he
        obtain ⟨rfl, he⟩ := List.cons.inj he
        cases zs with
        | nil =>
          have hv := congrArg (Nat.ofDigitChars 10 · 0) hd
          rw [Nat.ofDigitChars_ten_toDigits] at hv
          change n / 10 = 0 at hv
          omega
        | cons z zs => exact ih (n / 10) (by omega) z zs hd

lemma spellsUnsigned_toDigits (negative : Bool) (n : ℕ) :
    SpellsUnsigned negative (Nat.toDigits 10 n) (ofInteger negative (Nat.toDigits 10 n)) :=
  .integer ⟨Nat.toDigits_ne_nil, fun _ => Nat.isDigit_of_mem_toDigits (by decide) (by decide)⟩
    (toDigits_ne_zero_cons n)

/-- A signed or an unsigned word of 64 bits holds the number. -/
def InWord (n : ℤ) : Prop := -2 ^ 63 ≤ n ∧ n < 2 ^ 64

lemma ofInteger_toDigits {n : ℕ} (h : n < 2 ^ 64) :
    ofInteger false (Nat.toDigits 10 n) = int n := by
  have hn : n < UInt64.size := h
  simp [ofInteger, natOf, Nat.ofDigitChars_ten_toDigits, hn]

lemma ofInteger_toDigits_neg {n : ℕ} (h : n + 1 ≤ 2 ^ 63) :
    ofInteger true (Nat.toDigits 10 (n + 1)) = int (.negSucc n) := by
  have hm : n + 1 ≤ Int64.minValue.toInt.natAbs := h
  simp only [ofInteger, natOf, Nat.ofDigitChars_ten_toDigits]
  rw [if_pos ⟨trivial, by omega, hm⟩]
  rfl

lemma spellsNumber_intChars {n : ℤ} (hn : InWord n) : SpellsNumber (intChars n) (int n) := by
  cases n with
  | ofNat n =>
    have hu := spellsUnsigned_toDigits false n
    rw [ofInteger_toDigits (by have := hn.2; simp at this; omega)] at hu
    exact .positive hu
  | negSucc n =>
    have hu := spellsUnsigned_toDigits true (n + 1)
    rw [ofInteger_toDigits_neg (by have := hn.1; omega)] at hu
    exact .negative hu

mutual

/-- The text of the value says all about it: its numbers are whole and fit in 64 bits, and nothing
in it is flawed. -/
def Plain : Json → Prop
  | int n => InWord n
  | real _ => False
  | array items => PlainItems items
  | object fields => PlainFields fields
  | flawed _ => False
  | misnamed _ => False
  | _ => True

def PlainItems : List Json → Prop
  | [] => True
  | x :: xs => x.Plain ∧ PlainItems xs

def PlainFields : List (String × Json) → Prop
  | [] => True
  | (_, v) :: rest => v.Plain ∧ PlainFields rest

end

def named (f : String × Json) : Option String × Json := (some f.1, f.2)

@[simp] lemma ofNamed_map_named (fs : List (String × Json)) : ofNamed (fs.map named) = object fs := by
  induction fs with
  | nil => rfl
  | cons f fs ih => rw [List.map_cons, named, ofNamed, ih, addField]

/-- A field is written as its key in quotes, a colon and its value. -/
lemma spaces_stringChars (key : String) (s : List Char) : ∃ t,
    Spaces (stringChars key ++ s) ('"' :: t) ∧ SpellsString t (some key) s := by
  refine ⟨_, .done, ?_⟩
  simpa using spellsString_escaped key s

mutual

theorem Plain.spells : ∀ {j : Json} (depth : ℕ) (rest : List Char), j.Plain →
    depth + j.depth ≤ maxDepth → Spells depth (j.chars ++ rest) (.value j) rest
  | null, _, _, _, _ => .null
  | bool true, _, _, _, _ => .boolTrue
  | bool false, _, _, _, _ => .boolFalse
  | int _, _, _, h, _ => .number (spellsNumber_intChars h)
  | string s, _, rest, _, _ => by
    simpa [chars, stringChars] using Spells.string (spellsString_escaped s rest)
  | real _, _, _, h, _ | flawed _, _, _, h, _ | misnamed _, _, _, h, _ => by simp [Plain] at h
  | array [], depth, rest, _, hd => by
    have hlt : depth < maxDepth := by simp only [Json.depth] at hd; omega
    have hempty : Spells depth ('[' :: ']' :: rest) (.value (atDepth depth (array []))) rest :=
      .emptyArray .done
    simpa [chars, atDepth, hlt] using hempty
  | array (x :: xs), depth, rest, ⟨hx, hxs⟩, hd => by
    simp only [Json.depth, depthItems] at hd
    have hlt : depth < maxDepth := by omega
    have hitem := hx.spells (depth + 1) (itemChars xs ++ rest) (by omega)
    have hitems := Spells.array (PlainItems.spells hxs (by omega) hitem)
    simpa [chars, atDepth, hlt] using hitems
  | object [], depth, rest, _, hd => by
    have hlt : depth < maxDepth := by simp only [Json.depth] at hd; omega
    have hempty : Spells depth ('\x7b' :: '\x7d' :: rest) (.value (atDepth depth (object []))) rest :=
      .emptyObject .done
    simpa [chars, atDepth, hlt] using hempty
  | object ((k, v) :: fs), depth, rest, ⟨hv, hfs⟩, hd => by
    simp only [Json.depth, depthFields] at hd
    have hlt : depth < maxDepth := by omega
    have hitem := hv.spells (depth + 1) (fieldChars fs ++ rest) (by omega)
    have hfields : Spells depth _ (.value (atDepth depth (ofNamed (((k, v) :: fs).map named)))) rest :=
      .object (PlainFields.spells k hfs (by omega) hitem)
    rw [ofNamed_map_named] at hfields
    simpa [chars, atDepth, hlt] using hfields

theorem PlainItems.spells : ∀ {xs : List Json} {depth : ℕ} {x : Json} {s rest : List Char},
    PlainItems xs → depth + depthItems xs ≤ maxDepth →
    Spells depth s (.value x) (itemChars xs ++ rest) → Spells depth s (.items (x :: xs)) rest
  | [], _, _, _, _, _, _, hitem => .lastItem hitem .done
  | y :: ys, depth, _, _, rest, ⟨hy, hys⟩, hd, hitem => by
    simp only [depthItems] at hd
    rw [itemChars, List.cons_append, List.append_assoc] at hitem
    have hnext := hy.spells depth (itemChars ys ++ rest) (by omega)
    exact .item hitem .done (PlainItems.spells hys (by omega) hnext)

theorem PlainFields.spells : ∀ {fs : List (String × Json)} (key : String) {depth : ℕ} {x : Json}
    {s rest : List Char}, PlainFields fs → depth + depthFields fs ≤ maxDepth →
    Spells depth s (.value x) (fieldChars fs ++ rest) →
    Spells depth (stringChars key ++ ':' :: s) (.fields ((some key, x) :: fs.map named)) rest
  | [], key, _, _, s, _, _, _, hitem => by
    obtain ⟨t, quote, name⟩ := spaces_stringChars key (':' :: s)
    exact .lastField quote name .done hitem .done
  | (k, v) :: fs, key, depth, _, s, rest, ⟨hv, hfs⟩, hd, hitem => by
    simp only [depthFields] at hd
    obtain ⟨t, quote, name⟩ := spaces_stringChars key (':' :: s)
    rw [fieldChars] at hitem
    simp only [List.cons_append, List.append_assoc] at hitem
    have hnext := hv.spells depth (fieldChars fs ++ rest) (by omega)
    exact .field quote name .done hitem .done (PlainFields.spells k hfs (by omega) hnext)

end

/-- Reading the text of a value gives the value, unless it is nested too deeply. -/
theorem read?_render {j : Json} (hp : j.Plain) (hd : j.depth ≤ maxDepth) :
    read? j.render = some j := by
  have hspells := hp.spells 0 [] (by omega)
  rw [List.append_nil] at hspells
  rw [read?_eq_some_iff, render, String.toList_ofList]
  exact ⟨[], hspells, .done⟩

end MissionCatalog.Json
