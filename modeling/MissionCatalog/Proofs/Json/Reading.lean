import MissionCatalog.Proofs.Json.Numbers

/-!
# Reading JSON

The reader gives the value of a text just if the text spells it. What is read is spelled, by
induction on the fuel; what is spelled is read, by induction on the grammar, with fuel for two calls
at each character.
-/
namespace MissionCatalog.Json

lemma ofNamed_cons (key : Option String) (v : Json) (fs : List (Option String × Json)) :
    ofNamed ((key, v) :: fs) = (key.map fun k => (ofNamed fs).addField k v).getD (misnamed []) := by
  cases key <;> rfl

lemma Spaces.trans {s t u : List Char} (h : Spaces s t) (h' : Spaces t u) : Spaces s u := by
  induction h with
  | done => exact h'
  | space blank more ih => exact .space blank (ih h')

lemma Spaces.spells {depth : ℕ} {s t rest : List Char} {p : Phrase} (h : Spaces s t)
    (spelled : Spells depth t p rest) : Spells depth s p rest := by
  have hvalue : ∀ {j u}, Spells depth t (.value j) u → Spells depth s (.value j) u := by
    intro j u spelled
    induction h with
    | done => exact spelled
    | space blank more ih => exact .spaced blank (ih ‹_› spelled)
  cases p with
  | value j => exact hvalue spelled
  | items xs =>
    cases spelled with
    | lastItem item close => exact .lastItem (hvalue item) close
    | item item comma more => exact .item (hvalue item) comma more
  | fields fs =>
    cases spelled with
    | lastField quote name colon item close =>
      exact .lastField (h.trans quote) name colon item close
    | field quote name colon item comma more =>
      exact .field (h.trans quote) name colon item comma more

structure IsSound (fuel : ℕ) : Prop where
  value : ∀ {depth s j rest}, value fuel depth s = .ok (j, rest) → Spells depth s (.value j) rest
  items : ∀ {depth s xs rest}, items fuel depth s = .ok (xs, rest) → Spells depth s (.items xs) rest
  fields : ∀ {depth s j rest}, fields fuel depth s = .ok (j, rest) →
    ∃ fs, Spells depth s (.fields fs) rest ∧ ofNamed fs = j

variable {fuel depth : ℕ} {s rest : List Char}

lemma IsSound.value_succ (ih : IsSound fuel) {j : Json}
    (h : Json.value (fuel + 1) depth s = .ok (j, rest)) : Spells depth s (.value j) rest := by
  refine (spaces_skipSpaces s).spells ?_
  rw [Json.value] at h
  generalize skipSpaces s = t at h ⊢
  split at h
  · cases h
    exact .null
  · cases h
    exact .boolTrue
  · cases h
    exact .boolFalse
  · split at h
    · next hbody =>
      cases h
      exact .string (stringBody_eq_some_iff.1 hbody)
    · next hbody =>
      cases h
      exact .flawedString (stringBody_eq_some_iff.1 hbody)
    · cases h
  · next t =>
    split at h
    · next hclose =>
      cases h
      exact .emptyArray (spaces_of_skipSpaces hclose)
    · split at h
      · next hitems =>
        cases h
        exact .array ((spaces_skipSpaces t).spells (ih.items hitems))
      · cases h
  · next t =>
    split at h
    · next hclose =>
      cases h
      exact .emptyObject (spaces_of_skipSpaces hclose)
    · split at h
      · next hfields =>
        cases h
        obtain ⟨fs, hfs, rfl⟩ := ih.fields hfields
        exact .object ((spaces_skipSpaces t).spells hfs)
      · cases h
  · split at h
    · next hnumber =>
      obtain rfl := Except.ok.inj h
      obtain ⟨t, rfl, ht⟩ := spellsNumber_of_number? hnumber
      exact .number ht
    · cases h

lemma IsSound.items_succ (ih : IsSound fuel) {xs : List Json}
    (h : Json.items (fuel + 1) depth s = .ok (xs, rest)) : Spells depth s (.items xs) rest := by
  rw [Json.items] at h
  split at h
  · cases h
  · next x t hvalue =>
    split at h
    · next hclose =>
      cases h
      exact .lastItem (ih.value hvalue) (spaces_of_skipSpaces hclose)
    · next hcomma =>
      split at h
      · next hitems =>
        cases h
        exact .item (ih.value hvalue) (spaces_of_skipSpaces hcomma) (ih.items hitems)
      · cases h
    · cases h

lemma IsSound.fields_succ (ih : IsSound fuel) {j : Json}
    (h : Json.fields (fuel + 1) depth s = .ok (j, rest)) :
    ∃ fs, Spells depth s (.fields fs) rest ∧ ofNamed fs = j := by
  rw [Json.fields] at h
  split at h
  · next t hquote =>
    have quote := spaces_of_skipSpaces hquote
    split at h
    · cases h
    · next key u hname =>
      have name := stringBody_eq_some_iff.1 hname
      dsimp only at h
      split at h
      · next v hcolon =>
        have colon := spaces_of_skipSpaces hcolon
        split at h
        · cases h
        · next x w hvalue =>
          have item := ih.value hvalue
          split at h
          · next hclose =>
            cases h
            have close := spaces_of_skipSpaces hclose
            exact ⟨_, .lastField quote name colon item close, ofNamed_cons ..⟩
          · next hcomma =>
            have comma := spaces_of_skipSpaces hcomma
            split at h
            · next hfields =>
              cases h
              obtain ⟨fs, more, rfl⟩ := ih.fields hfields
              exact ⟨_, .field quote name colon item comma more, ofNamed_cons ..⟩
            · cases h
          · cases h
      · cases h
  · cases h

theorem isSound (fuel : ℕ) : IsSound fuel := by
  induction fuel with
  | zero =>
    refine ⟨fun h => ?_, fun h => ?_, fun h => ?_⟩
    · rw [value] at h
      cases h
    · rw [items] at h
      cases h
    · rw [fields] at h
      cases h
  | succ fuel ih => exact ⟨ih.value_succ, ih.items_succ, ih.fields_succ⟩

lemma Spells.length_lt {p : Phrase} (h : Spells depth s p rest) : rest.length < s.length := by
  induction h with
  | spaced blank spelled ih => exact ih.trans (Nat.lt_succ_self _)
  | number spelled =>
    obtain ⟨c, t, rfl, -⟩ := spelled.exists_cons
    simp
  | null | boolTrue | boolFalse => simp only [List.length_cons]; omega
  | string spelled | flawedString spelled =>
    have := spelled.length_lt
    simp only [List.length_cons]
    omega
  | emptyArray close | emptyObject close =>
    have := close.length_le
    simp only [List.length_cons] at this ⊢
    omega
  | array spelled ih | object spelled ih =>
    simp only [List.length_cons]
    omega
  | lastItem item close ih =>
    have := close.length_le
    simp only [List.length_cons] at this
    omega
  | item item comma more ih ih' =>
    have := comma.length_le
    simp only [List.length_cons] at this
    omega
  | lastField quote name colon item close ih =>
    have := quote.length_le
    have := name.length_lt
    have := colon.length_le
    have := close.length_le
    simp only [List.length_cons] at *
    omega
  | field quote name colon item comma more ih ih' =>
    have := quote.length_le
    have := name.length_lt
    have := colon.length_le
    have := comma.length_le
    simp only [List.length_cons] at *
    omega

/-- Nothing that is left to read begins with a closing bracket. -/
lemma Spells.skipSpaces_ne {p : Phrase} (h : Spells depth s p rest) {c : Char}
    (hc : c = ']' ∨ c = '\x7d') (t : List Char) : skipSpaces s ≠ c :: t := by
  have hhead : ∀ {d : Char} {u : List Char}, isSpace d = false → d ≠ ']' → d ≠ '\x7d' →
      skipSpaces (d :: u) ≠ c :: t := by
    intro d u hd harray hobject heq
    rw [skipSpaces_cons hd] at heq
    obtain rfl := (List.cons.inj heq).1
    exact hc.elim harray hobject
  induction h with
  | spaced blank spelled ih =>
    rw [skipSpaces_cons_space blank]
    exact ih
  | number spelled =>
    obtain ⟨d, u, rfl, hd⟩ := spelled.exists_cons
    refine hhead ?_ ?_ ?_
    · rcases hd with rfl | hd
      · decide
      · exact isSpace_of_isDigit hd
    all_goals
      rintro rfl
      revert hd
      decide
  | lastItem item close ih => exact ih
  | item item comma more ih ih' => exact ih
  | lastField quote name colon item close ih =>
    rw [quote.skipSpaces_eq_cons rfl]
    rintro ⟨⟩
    simp at hc
  | field quote name colon item comma more ih ih' =>
    rw [quote.skipSpaces_eq_cons rfl]
    rintro ⟨⟩
    simp at hc
  | _ => exact hhead (by decide) (by decide) (by decide)

lemma Spaces.endsNumber {s rest : List Char} (h : Spaces s rest) (hrest : EndsNumber rest) :
    EndsNumber s := by
  cases h with
  | done => exact hrest
  | space blank more =>
    intro c hc
    obtain rfl := Option.some.inj hc
    simp only [isSpace, Bool.or_eq_true, beq_iff_eq] at blank
    rcases blank with ((rfl | rfl) | rfl) | rfl <;> decide

lemma endsNumber_cons {c : Char} (h : c = ',' ∨ c = ']' ∨ c = '\x7d') (s : List Char) :
    EndsNumber (c :: s) := by
  intro d hd
  obtain rfl := Option.some.inj hd
  rcases h with rfl | rfl | rfl <;> decide

lemma value_congr {s t : List Char} (h : skipSpaces s = skipSpaces t) (fuel depth : ℕ) :
    value fuel depth s = value fuel depth t := by
  cases fuel with
  | zero => rw [value, value]
  | succ fuel => rw [value, value, h]

lemma items_congr {s t : List Char} (h : skipSpaces s = skipSpaces t) (fuel depth : ℕ) :
    items fuel depth s = items fuel depth t := by
  cases fuel with
  | zero => rw [items, items]
  | succ fuel => rw [items, items, value_congr h]

lemma fields_congr {s t : List Char} (h : skipSpaces s = skipSpaces t) (fuel depth : ℕ) :
    fields fuel depth s = fields fuel depth t := by
  cases fuel with
  | zero => rw [fields, fields]
  | succ fuel => rw [fields, fields, h]

/-- The phrase is read with fuel for the whole text, if no number in front goes on. -/
def Phrase.IsRead (depth : ℕ) (s rest : List Char) : Phrase → Prop
  | value j => EndsNumber rest → ∀ fuel, 2 * s.length ≤ fuel →
      Json.value fuel depth s = .ok (j, rest)
  | items xs => ∀ fuel, 2 * s.length < fuel → Json.items fuel depth s = .ok (xs, rest)
  | fields fs => ∀ fuel, 2 * s.length < fuel → Json.fields fuel depth s = .ok (ofNamed fs, rest)

/-- A number is read as one because it begins with a digit or a minus sign. -/
lemma value_number {c : Char} {s : List Char} {result : Json × List Char}
    (hc : c = '-' ∨ c.isDigit) (h : number? (c :: s) = some result) (fuel depth : ℕ) :
    value (fuel + 1) depth (c :: s) = .ok result := by
  have hs : isSpace c = false := by
    rcases hc with rfl | hc
    · decide
    · exact isSpace_of_isDigit hc
  rw [value.eq_def]
  simp only [skipSpaces_cons hs]
  split
  all_goals simp_all [Char.isDigit]

theorem Spells.isRead {p : Phrase} (h : Spells depth s p rest) : p.IsRead depth s rest := by
  have hfuel : ∀ {n fuel : ℕ}, 2 * (n + 1) ≤ fuel → ∃ m, fuel = m + 1 ∧ 2 * n < m := by
    intro n fuel hfuel
    exact ⟨fuel - 1, by omega, by omega⟩
  induction h with
  | spaced blank spelled ih =>
    intro hrest fuel hfuel
    rw [value_congr (skipSpaces_cons_space blank _)]
    exact ih hrest fuel (by simp only [List.length_cons] at hfuel; omega)
  | null | boolTrue | boolFalse =>
    intro _ fuel hfuel'
    obtain ⟨fuel, rfl, -⟩ := hfuel hfuel'
    simp [Json.value, isSpace]
  | number spelled =>
    intro hrest fuel hfuel'
    have hnumber := number?_of_spells spelled hrest
    obtain ⟨c, t, rfl, hc⟩ := spelled.exists_cons
    obtain ⟨fuel, rfl, -⟩ := hfuel hfuel'
    exact value_number hc hnumber fuel _
  | string spelled | flawedString spelled =>
    intro _ fuel hfuel'
    obtain ⟨fuel, rfl, -⟩ := hfuel hfuel'
    simp [Json.value, isSpace, stringBody_eq_some_iff.2 spelled]
  | emptyArray close | emptyObject close =>
    intro _ fuel hfuel'
    obtain ⟨fuel, rfl, -⟩ := hfuel hfuel'
    simp [Json.value, isSpace, close.skipSpaces_eq_cons rfl]
  | @array depth s rest xs spelled ih =>
    intro _ fuel hfuel'
    obtain ⟨fuel, rfl, hlt⟩ := hfuel hfuel'
    have hitems := ih fuel hlt
    rw [← items_congr (spaces_skipSpaces s).skipSpaces_eq.symm] at hitems
    simp only [Json.value, skipSpaces_cons (show isSpace '[' = false by decide)]
    split
    · next h => exact absurd h (spelled.skipSpaces_ne (.inl rfl) _)
    · rw [hitems]
  | @object depth s rest fs spelled ih =>
    intro _ fuel hfuel'
    obtain ⟨fuel, rfl, hlt⟩ := hfuel hfuel'
    have hfields := ih fuel hlt
    rw [← fields_congr (spaces_skipSpaces s).skipSpaces_eq.symm] at hfields
    simp only [Json.value, skipSpaces_cons (show isSpace '\x7b' = false by decide)]
    split
    · next h => exact absurd h (spelled.skipSpaces_ne (.inr rfl) _)
    · rw [hfields]
  | lastItem item close ih =>
    intro fuel hfuel
    obtain ⟨fuel, rfl⟩ : ∃ m, fuel = m + 1 := ⟨fuel - 1, by omega⟩
    have hvalue := ih (close.endsNumber (endsNumber_cons (by simp) _)) fuel (by omega)
    rw [Json.items, hvalue]
    simp only [close.skipSpaces_eq_cons rfl]
  | item item comma more ih ih' =>
    intro fuel hfuel
    obtain ⟨fuel, rfl⟩ : ∃ m, fuel = m + 1 := ⟨fuel - 1, by omega⟩
    have hvalue := ih (comma.endsNumber (endsNumber_cons (by simp) _)) fuel (by omega)
    have hlength := item.length_lt
    have hcomma := comma.length_le
    simp only [List.length_cons] at hcomma
    rw [Json.items, hvalue]
    simp only [comma.skipSpaces_eq_cons rfl, ih' fuel (by omega)]
  | lastField quote name colon item close ih =>
    intro fuel hfuel
    obtain ⟨fuel, rfl⟩ : ∃ m, fuel = m + 1 := ⟨fuel - 1, by omega⟩
    have hquote := quote.length_le
    have hname := name.length_lt
    have hcolon := colon.length_le
    simp only [List.length_cons] at hquote hcolon
    have hvalue := ih (close.endsNumber (endsNumber_cons (by simp) _)) fuel (by omega)
    rw [Json.fields]
    simp only [quote.skipSpaces_eq_cons rfl, stringBody_eq_some_iff.2 name,
      colon.skipSpaces_eq_cons rfl, hvalue, close.skipSpaces_eq_cons rfl]
    rw [ofNamed_cons]
    rfl
  | field quote name colon item comma more ih ih' =>
    intro fuel hfuel
    obtain ⟨fuel, rfl⟩ : ∃ m, fuel = m + 1 := ⟨fuel - 1, by omega⟩
    have hquote := quote.length_le
    have hname := name.length_lt
    have hcolon := colon.length_le
    have hitem := item.length_lt
    have hcomma := comma.length_le
    simp only [List.length_cons] at hquote hcolon hcomma
    have hvalue := ih (comma.endsNumber (endsNumber_cons (by simp) _)) fuel (by omega)
    rw [Json.fields]
    simp only [quote.skipSpaces_eq_cons rfl, stringBody_eq_some_iff.2 name,
      colon.skipSpaces_eq_cons rfl, hvalue, comma.skipSpaces_eq_cons rfl,
      ih' fuel (by omega)]
    rw [ofNamed_cons]

/-- A text is read just if it spells a value, and then as this value. -/
theorem read?_eq_some_iff {text : String} {j : Json} :
    read? text = some j ↔ IsTextOf text.toList j := by
  constructor
  · intro h
    rw [read?] at h
    split at h
    · next rest hvalue =>
      split at h
      · next hempty =>
        obtain rfl := Option.some.inj h
        exact ⟨rest, (isSound _).value hvalue, spaces_nil_iff.2 hempty⟩
      · cases h
    · cases h
  · rintro ⟨rest, spelled, hspaces⟩
    have hnil : EndsNumber [] := fun _ h => by cases h
    have hfuel : 2 * text.toList.length ≤ 2 * text.length + 2 := by
      rw [String.length_toList]
      omega
    rw [read?, spelled.isRead (hspaces.endsNumber hnil) _ hfuel]
    exact if_pos (spaces_nil_iff.1 hspaces)

end MissionCatalog.Json
