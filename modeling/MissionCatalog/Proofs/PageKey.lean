import Mathlib
import MissionCatalog.PageKey
import MissionCatalog.Proofs.Json.RoundTrip

/-!
# Page keys and their tokens

Page keys are in linear order: by name, then the key without a path, then by path. A token gives
back the key that it was made from, whatever characters are in it.
-/
namespace MissionCatalog

namespace Text

lemma isBlank_digit {n : ℕ} (h : n < 64) : isBlank (Base64.digit n) = false := by
  have : ∀ n : Fin 64, isBlank (Base64.digit n.val) = false := by decide
  exact this ⟨n, h⟩

lemma trim_ofList {s : List Char} (h : ∀ c ∈ s, isBlank c = false) :
    trim (String.ofList s) = String.ofList s := by
  have hd : ∀ t : List Char, (∀ c ∈ t, isBlank c = false) → t.dropWhile isBlank = t := by
    intro t ht
    cases t with
    | nil => rfl
    | cons c cs => simp [ht c (by simp)]
  simp only [trim, String.toList_ofList]
  rw [hd s h, hd s.reverse (by simpa using h), List.reverse_reverse]

lemma trim_encode (bytes : List UInt8) :
    trim (String.ofList (Base64.encode bytes)) = String.ofList (Base64.encode bytes) := by
  apply trim_ofList
  intro c hc
  obtain ⟨n, hn, rfl⟩ := List.mem_map.1 hc
  exact isBlank_digit (Base64.lt_of_mem_toDigits hn)

end Text

namespace PageKey

def pathBefore : Option String → Option String → Prop
  | none, some _ => True
  | some a, some b => a < b
  | _, none => False

/-- The strict order of a listing: by name, then the key without a path, then by path. -/
def Before (a b : PageKey) : Prop :=
  a.name < b.name ∨ a.name = b.name ∧ pathBefore a.path b.path

/-- A path, or the least element when there is none. -/
def pathRank : Option String → WithBot String
  | none => ⊥
  | some p => p

def rank (k : PageKey) : String ×ₗ WithBot String := toLex (k.name, pathRank k.path)

lemma pathLe_iff (p q : Option String) : pathLe p q = true ↔ pathRank p ≤ pathRank q := by
  cases p <;> cases q <;> simp [pathLe, pathRank]

lemma pathBefore_iff (p q : Option String) : pathBefore p q ↔ pathRank p < pathRank q := by
  cases p <;> cases q <;> simp [pathBefore, pathRank]

lemma pathRank_injective : Function.Injective pathRank := by
  intro p q h
  cases p <;> cases q <;> simp_all [pathRank]

lemma rank_injective : Function.Injective rank := by
  intro a b h
  obtain ⟨hn, hp⟩ := Prod.mk.inj (toLex.injective h)
  cases a
  cases b
  exact PageKey.mk.injEq .. ▸ ⟨hn, pathRank_injective hp⟩

lemma le_iff (a b : PageKey) : le a b = true ↔ rank a ≤ rank b := by
  rw [rank, rank, Prod.Lex.toLex_le_toLex, ← pathLe_iff]
  simp only [le, Bool.or_eq_true, Bool.and_eq_true, decide_eq_true_eq, beq_iff_eq]

lemma before_iff (a b : PageKey) : Before a b ↔ rank a < rank b := by
  rw [rank, rank, Prod.Lex.toLex_lt_toLex, ← pathBefore_iff]
  rfl

lemma le_eq_false_iff (a b : PageKey) : le a b = false ↔ Before b a := by
  rw [← Bool.not_eq_true, le_iff, before_iff, not_le]

lemma Before.ne {a b : PageKey} (h : Before a b) : a ≠ b := by
  rintro rfl
  exact lt_irrefl _ ((before_iff _ _).1 h)

lemma ofJson_toJson (k : PageKey) : ofJson k.toJson = .ok (tokenVersion, k) := by
  obtain ⟨n, _ | p⟩ := k <;> rfl

lemma plain_toJson (k : PageKey) : k.toJson.Plain := by
  have hv : Json.InWord tokenVersion := by simp [Json.InWord, tokenVersion]
  obtain ⟨n, _ | p⟩ := k <;>
    simp [toJson, Json.field?, Json.ofNat, Json.Plain, Json.PlainFields, hv]

lemma depth_toJson (k : PageKey) : k.toJson.depth = 1 := by
  obtain ⟨n, _ | p⟩ := k <;> simp [toJson, Json.field?, Json.ofNat, Json.depth, Json.depthFields]

lemma payload?_token (k : PageKey) : payload? k.token = some k.toJson := by
  have hr := Json.read?_render (plain_toJson k) (by simp [depth_toJson, Json.maxDepth])
  simp [payload?, token, Text.trim_encode, Text.Base64.decode_encode, Text.ofBytes?_toBytes, hr]

theorem ofToken_token (k : PageKey) : ofToken k.token = .ok k := by
  simp [ofToken, payload?_token, ofJson_toJson]

end PageKey

end MissionCatalog
