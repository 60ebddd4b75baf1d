import MissionCatalog.Proofs.Json.Grammar

/-!
# Numbers in JSON

The reader of numbers takes the longest one in front, so it reads the spelled ones where nothing
behind goes on with them.
-/
namespace MissionCatalog.Json

/-- No number goes on with the text. -/
def EndsNumber (rest : List Char) : Prop :=
  ∀ c ∈ rest.head?, ¬c.isDigit ∧ c ≠ '.' ∧ c ≠ 'e' ∧ c ≠ 'E'

lemma span_digits {digits rest : List Char} (h : ∀ c ∈ digits, c.isDigit)
    (hrest : ∀ c ∈ rest.head?, ¬c.isDigit) :
    (digits ++ rest).span Char.isDigit = (digits, rest) := by
  have hnone : rest.takeWhile Char.isDigit = [] ∧ rest.dropWhile Char.isDigit = rest := by
    cases rest with
    | nil => exact ⟨rfl, rfl⟩
    | cons c cs => simp [hrest c rfl]
  rw [List.span_eq_takeWhile_dropWhile, List.takeWhile_append_of_pos h,
    List.dropWhile_append_of_pos h, hnone.1, hnone.2, List.append_nil]

lemma span_eq {s digits rest : List Char} (h : s.span Char.isDigit = (digits, rest)) :
    s = digits ++ rest ∧ ∀ c ∈ digits, c.isDigit := by
  rw [List.span_eq_takeWhile_dropWhile] at h
  obtain ⟨rfl, rfl⟩ := Prod.mk.inj h
  exact ⟨List.takeWhile_append_dropWhile.symm, fun c hc => List.mem_takeWhile_imp hc⟩

lemma spellsFraction_of_fraction? {s rest : List Char} {places : Option (List Char)}
    (h : fraction? s = some (places, rest)) : ∃ t, s = t ++ rest ∧ SpellsFraction t places := by
  unfold fraction? at h
  split at h
  · split at h
    · simp at h
    · next digits left hnone hspan =>
      obtain ⟨rfl, rfl⟩ : some digits = places ∧ left = rest := by simpa using h
      obtain ⟨rfl, hdigits⟩ := span_eq hspan
      exact ⟨'.' :: digits, rfl, .places ⟨hnone, hdigits⟩⟩
  · obtain ⟨rfl, rfl⟩ : none = places ∧ s = rest := by simpa using h
    exact ⟨[], rfl, .absent⟩

lemma fraction?_of_spells {t rest : List Char} {places : Option (List Char)}
    (h : SpellsFraction t places) (hrest : ∀ c ∈ rest.head?, ¬c.isDigit ∧ c ≠ '.') :
    fraction? (t ++ rest) = some (places, rest) := by
  cases h with
  | absent =>
    cases rest with
    | nil => rfl
    | cons c rest => simp [fraction?, (hrest c rfl).2]
  | places isDigits =>
    obtain ⟨d, digits, rfl⟩ := List.exists_cons_of_ne_nil isDigits.1
    have hspan := span_digits isDigits.2 fun c hc => (hrest c hc).1
    simp only [fraction?, List.cons_append] at hspan ⊢
    rw [hspan]

lemma spellsExponent_of_exponent? {s rest : List Char} {power : Option ℤ}
    (h : exponent? s = some (power, rest)) : ∃ t, s = t ++ rest ∧ SpellsExponent t power := by
  have hdigits : ∀ {negative : Bool} {s rest : List Char} {power : Option ℤ},
      exponentDigits? negative s = some (power, rest) →
      ∃ digits, s = digits ++ rest ∧ IsDigits digits ∧
        power = some (if negative then -(natOf digits : ℤ) else natOf digits) := by
    intro negative s rest power h
    unfold exponentDigits? at h
    split at h
    · simp at h
    · next digits left hnone hspan =>
      obtain ⟨rfl, rfl⟩ : _ = power ∧ left = rest := by simpa using h
      obtain ⟨rfl, hdigits⟩ := span_eq hspan
      exact ⟨digits, rfl, ⟨hnone, hdigits⟩, rfl⟩
  unfold exponent? at h
  split at h
  · next e s =>
    split at h
    · next letter =>
      split at h
      · next s =>
        obtain ⟨digits, rfl, isDigits, rfl⟩ := hdigits h
        exact ⟨e :: '+' :: digits, rfl, .plus letter isDigits⟩
      · next s =>
        obtain ⟨digits, rfl, isDigits, rfl⟩ := hdigits h
        exact ⟨e :: '-' :: digits, rfl, .minus letter isDigits⟩
      · obtain ⟨digits, rfl, isDigits, rfl⟩ := hdigits h
        exact ⟨e :: digits, rfl, .unsigned letter isDigits⟩
    · obtain ⟨rfl, rfl⟩ : none = power ∧ e :: s = rest := by simpa using h
      exact ⟨[], rfl, .absent⟩
  · obtain ⟨rfl, rfl⟩ : none = power ∧ [] = rest := by simpa using h
    exact ⟨[], rfl, .absent⟩

lemma exponentDigits?_append {digits rest : List Char} (negative : Bool) (h : IsDigits digits)
    (hrest : ∀ c ∈ rest.head?, ¬c.isDigit) : exponentDigits? negative (digits ++ rest) =
      some (some (if negative then -(natOf digits : ℤ) else natOf digits), rest) := by
  rw [exponentDigits?, span_digits h.2 hrest]
  obtain ⟨d, digits, rfl⟩ := List.exists_cons_of_ne_nil h.1
  rfl

lemma exponent?_of_spells {t rest : List Char} {power : Option ℤ} (h : SpellsExponent t power)
    (hrest : EndsNumber rest) : exponent? (t ++ rest) = some (power, rest) := by
  have hdigit : ∀ c ∈ rest.head?, ¬c.isDigit := fun c hc => (hrest c hc).1
  cases h with
  | absent =>
    cases rest with
    | nil => rfl
    | cons c rest => simp [exponent?, (hrest c rfl).2.2]
  | unsigned letter isDigits =>
    have hpower := exponentDigits?_append false isDigits hdigit
    obtain ⟨d, digits, rfl⟩ := List.exists_cons_of_ne_nil isDigits.1
    have hd := isDigits.2 d List.mem_cons_self
    have hplus : d ≠ '+' := by
      rintro rfl
      simp [Char.isDigit] at hd
    have hminus : d ≠ '-' := by
      rintro rfl
      simp [Char.isDigit] at hd
    rw [List.cons_append] at hpower
    simp [exponent?, letter, hplus, hminus, hpower]
  | plus letter isDigits =>
    simp [exponent?, letter, exponentDigits?_append _ isDigits hdigit]
  | minus letter isDigits =>
    simp [exponent?, letter, exponentDigits?_append _ isDigits hdigit]

lemma spellsUnsigned_of_unsigned? {negative : Bool} {s rest : List Char} {j : Json}
    (h : unsigned? negative s = some (j, rest)) :
    ∃ t, s = t ++ rest ∧ SpellsUnsigned negative t j := by
  unfold unsigned? at h
  split at h
  · simp at h
  · simp at h
  · next digits left hnone hzero hspan =>
    obtain ⟨rfl, hdigits⟩ := span_eq hspan
    have isDigits : IsDigits digits := ⟨hnone, hdigits⟩
    have no_zero : ∀ c more, digits ≠ '0' :: c :: more := hzero
    simp only [Option.bind_eq_bind, Option.bind_eq_some_iff, Prod.exists] at h
    obtain ⟨places, behind, hplaces, power, rest', hpower, h⟩ := h
    obtain ⟨fraction, rfl, hfraction⟩ := spellsFraction_of_fraction? hplaces
    obtain ⟨exponent, rfl, hexponent⟩ := spellsExponent_of_exponent? hpower
    split at h
    · obtain ⟨rfl, rfl⟩ : _ = j ∧ rest' = rest := by simpa using h
      cases hfraction
      cases hexponent
      exact ⟨digits, rfl, .integer isDigits no_zero⟩
    · next hreal =>
      obtain ⟨rfl, rfl⟩ : _ = j ∧ rest' = rest := by simpa using h
      refine ⟨digits ++ (fraction ++ exponent), by simp,
        .real isDigits no_zero hfraction hexponent ?_⟩
      by_contra! hnone
      exact hreal hnone.1 hnone.2

lemma SpellsFraction.head? {t : List Char} {places : Option (List Char)}
    (h : SpellsFraction t places) : ∀ c ∈ t.head?, c = '.' := by
  cases h <;> simp

lemma SpellsExponent.head? {t : List Char} {power : Option ℤ} (h : SpellsExponent t power) :
    ∀ c ∈ t.head?, c = 'e' ∨ c = 'E' := by
  cases h <;> simp [*]

lemma head?_append_of {p : Char → Prop} {s t : List Char} (hs : ∀ c ∈ s.head?, p c)
    (ht : ∀ c ∈ t.head?, p c) : ∀ c ∈ (s ++ t).head?, p c := by
  cases s with
  | nil => exact ht
  | cons c s => exact hs

lemma unsigned?_of_parts {negative : Bool} {digits fraction exponent rest : List Char}
    {places : Option (List Char)} {power : Option ℤ} (isDigits : IsDigits digits)
    (no_zero : ∀ c more, digits ≠ '0' :: c :: more) (hfraction : SpellsFraction fraction places)
    (hexponent : SpellsExponent exponent power) (hrest : EndsNumber rest) :
    unsigned? negative (digits ++ (fraction ++ (exponent ++ rest))) = match places, power with
      | none, none => some (ofInteger negative digits, rest)
      | _, _ => some (ofDigits negative digits (places.getD []) (power.getD 0), rest) := by
  have hbehind : ∀ c ∈ (exponent ++ rest).head?, ¬c.isDigit ∧ c ≠ '.' := by
    refine head?_append_of (fun c hc => ?_) fun c hc => ⟨(hrest c hc).1, (hrest c hc).2.1⟩
    rcases hexponent.head? c hc with rfl | rfl <;> decide
  have hspan : (digits ++ (fraction ++ (exponent ++ rest))).span Char.isDigit =
      (digits, fraction ++ (exponent ++ rest)) := by
    refine span_digits isDigits.2 (head?_append_of (fun c hc => ?_) fun c hc => (hbehind c hc).1)
    rw [hfraction.head? c hc]
    decide
  rw [unsigned?, hspan]
  split
  · next h => exact absurd (congrArg Prod.fst h) isDigits.1
  · next h => exact absurd (congrArg Prod.fst h) (no_zero _ _)
  · next h =>
    obtain ⟨rfl, rfl⟩ := Prod.mk.inj h
    simp only [fraction?_of_spells hfraction hbehind, exponent?_of_spells hexponent hrest,
      Option.bind_eq_bind, Option.bind_some]
    cases places <;> cases power <;> rfl

lemma unsigned?_of_spells {negative : Bool} {t rest : List Char} {j : Json}
    (h : SpellsUnsigned negative t j) (hrest : EndsNumber rest) :
    unsigned? negative (t ++ rest) = some (j, rest) := by
  cases h with
  | integer isDigits no_zero => exact unsigned?_of_parts isDigits no_zero .absent .absent hrest
  | @real _ _ _ places power isDigits no_zero hfraction hexponent isReal =>
    rw [List.append_assoc, List.append_assoc,
      unsigned?_of_parts isDigits no_zero hfraction hexponent hrest]
    cases places <;> cases power <;> simp_all

lemma SpellsUnsigned.exists_cons {negative : Bool} {t : List Char} {j : Json}
    (h : SpellsUnsigned negative t j) : ∃ c s, t = c :: s ∧ c.isDigit := by
  have hdigit : ∀ {digits s : List Char}, IsDigits digits →
      ∃ c t, digits ++ s = c :: t ∧ c.isDigit := by
    intro digits s h
    obtain ⟨d, digits, rfl⟩ := List.exists_cons_of_ne_nil h.1
    exact ⟨d, _, rfl, h.2 d List.mem_cons_self⟩
  cases h with
  | integer isDigits no_zero => simpa using hdigit (s := []) isDigits
  | real isDigits no_zero hfraction hexponent isReal => exact hdigit isDigits

lemma number?_of_spells {t rest : List Char} {j : Json} (h : SpellsNumber t j)
    (hrest : EndsNumber rest) : number? (t ++ rest) = some (j, rest) := by
  cases h with
  | positive unsigned =>
    have hnumber := unsigned?_of_spells unsigned hrest
    obtain ⟨c, s, rfl, hc⟩ := unsigned.exists_cons
    have hminus : c ≠ '-' := by
      rintro rfl
      simp [Char.isDigit] at hc
    rw [List.cons_append] at hnumber ⊢
    simpa [number?, hminus] using hnumber
  | negative unsigned => simpa [number?] using unsigned?_of_spells unsigned hrest

lemma SpellsNumber.exists_cons {t : List Char} {j : Json} (h : SpellsNumber t j) :
    ∃ c s, t = c :: s ∧ (c = '-' ∨ c.isDigit) := by
  cases h with
  | positive unsigned =>
    obtain ⟨c, s, rfl, hc⟩ := unsigned.exists_cons
    exact ⟨c, s, rfl, .inr hc⟩
  | negative unsigned => exact ⟨'-', _, rfl, .inl rfl⟩

lemma spellsNumber_of_number? {s rest : List Char} {j : Json} (h : number? s = some (j, rest)) :
    ∃ t, s = t ++ rest ∧ SpellsNumber t j := by
  unfold number? at h
  split at h
  · obtain ⟨t, rfl, ht⟩ := spellsUnsigned_of_unsigned? h
    exact ⟨'-' :: t, rfl, .negative ht⟩
  · obtain ⟨t, rfl, ht⟩ := spellsUnsigned_of_unsigned? h
    exact ⟨t, rfl, .positive ht⟩

end MissionCatalog.Json
