import MissionCatalog.Proofs.Search

/-!
# Fragments of a text

A query and a text are lower-cased apart, and a capital sigma takes its form from the characters
around it. A word that is cut out of a text is found in it if its sigmas have the forms that they
have in the text. Which words are found in every text that they are cut out of is said exactly.
-/
namespace MissionCatalog

namespace Text

/-- The lower case of a capital sigma between two texts, the first given last character first. -/
def sigmaForm (before after : List Char) : Char :=
  if meetsCased before && !meetsCased after then 'ς' else 'σ'

/-- Some character of the text is not passed over when the form of a sigma is chosen. -/
def Speaks (s : List Char) : Prop := ∃ c ∈ s, ¬caseIgnorable.contains c

instance : DecidablePred Speaks := fun s =>
  decidable_of_iff (s.any fun c => !caseIgnorable.contains c) (by simp [Speaks])

lemma meetsCased_append_of_speaks {s : List Char} (h : Speaks s) (t : List Char) :
    meetsCased (s ++ t) = meetsCased s := by
  induction s with
  | nil => simp [Speaks] at h
  | cons c s ih =>
    unfold meetsCased at *
    by_cases hc : caseIgnorable.contains c
    · have hs : Speaks s := by simpa [Speaks, hc] using h
      simpa [hc] using ih hs
    · simp [hc]

lemma meetsCased_append_of_not_speaks {s : List Char} (h : ¬Speaks s) (t : List Char) :
    meetsCased (s ++ t) = meetsCased t := by
  have hs : ∀ c ∈ s, caseIgnorable.contains c := by simpa [Speaks] using h
  rw [meetsCased, List.dropWhile_append_of_pos hs, meetsCased]

lemma speaks_of_meetsCased {s : List Char} (h : meetsCased s) : Speaks s := by
  by_contra hs
  have hnil := meetsCased_append_of_not_speaks hs []
  rw [List.append_nil, h] at hnil
  exact absurd hnil (by decide)

lemma speaks_of_sigma_mem {s : List Char} (h : 'Σ' ∈ s) : Speaks s :=
  ⟨'Σ', h, by decide +kernel⟩

lemma speaks_reverse {s : List Char} : Speaks s.reverse ↔ Speaks s := by
  simp [Speaks]

/-- A capital sigma between the two texts has the same form whatever stands around them. -/
def IsSettled (before after : List Char) : Prop :=
  meetsCased after ∨ Speaks before ∧ (meetsCased before.reverse → Speaks after)

instance (before after : List Char) : Decidable (IsSettled before after) :=
  inferInstanceAs (Decidable (meetsCased after ∨ Speaks before ∧
    (meetsCased before.reverse → Speaks after)))

lemma IsSettled.sigmaForm_eq {x y : List Char} (h : IsSettled x y) (before after : List Char) :
    sigmaForm (x.reverse ++ before) (y ++ after) = sigmaForm x.reverse y := by
  unfold sigmaForm
  rcases h with hafter | ⟨hbefore, hafter⟩
  · rw [meetsCased_append_of_speaks (speaks_of_meetsCased hafter), hafter]
    simp
  · rw [meetsCased_append_of_speaks (speaks_reverse.2 hbefore)]
    by_cases hcased : meetsCased x.reverse
    · rw [meetsCased_append_of_speaks (hafter hcased)]
    · simp [hcased]

/-- Lower case of a text between two others, the first given last character first. -/
def lowerBetween (before : List Char) : List Char → List Char → List Char
  | [], _ => []
  | c :: s, after =>
    (if c = 'Σ' then [sigmaForm before (s ++ after)] else lowerChar c) ++
      lowerBetween (c :: before) s after

lemma lowerAfter_append (before s after : List Char) :
    lowerAfter before (s ++ after) =
      lowerBetween before s after ++ lowerAfter (s.reverse ++ before) after := by
  induction s generalizing before with
  | nil => rfl
  | cons c s ih =>
    simp [lowerAfter, lowerBetween, sigmaForm, ih]

lemma lower_eq_lowerBetween (s : List Char) : lower s = lowerBetween [] s [] := by
  have h := lowerAfter_append [] s []
  rwa [List.append_nil, lowerAfter, List.append_nil] at h

lemma lowerBetween_append (before s t after : List Char) :
    lowerBetween before (s ++ t) after =
      lowerBetween before s (t ++ after) ++ lowerBetween (s.reverse ++ before) t after := by
  induction s generalizing before with
  | nil => rfl
  | cons c s ih =>
    simp [lowerBetween, ih]

/-- The context of a text counts only for the forms of its sigmas. -/
lemma lowerBetween_congr {s before before' after after' : List Char}
    (h : ∀ x y, s = x ++ 'Σ' :: y → sigmaForm (x.reverse ++ before) (y ++ after) =
      sigmaForm (x.reverse ++ before') (y ++ after')) :
    lowerBetween before s after = lowerBetween before' s after' := by
  induction s generalizing before before' with
  | nil => rfl
  | cons c s ih =>
    have hrest : lowerBetween (c :: before) s after = lowerBetween (c :: before') s after' := by
      apply ih
      intro x y hs
      simpa using h (c :: x) y (by rw [hs]; rfl)
    rw [lowerBetween, lowerBetween, hrest]
    by_cases hc : c = 'Σ'
    · rw [if_pos hc, if_pos hc]
      have hform := h [] s (by rw [hc]; rfl)
      rw [List.reverse_nil, List.nil_append, List.nil_append] at hform
      rw [hform]
    · rw [if_neg hc, if_neg hc]

/-- Every sigma of the text has the form between the two others that it has without them. -/
def KeepsForms (before s after : List Char) : Prop :=
  ∀ x y, s = x ++ 'Σ' :: y → sigmaForm (before ++ x).reverse (y ++ after) = sigmaForm x.reverse y

lemma KeepsForms.lower_infix {before s after : List Char} (h : KeepsForms before s after) :
    lower s <:+: lower (before ++ s ++ after) := by
  have hs : lowerBetween before.reverse s after = lower s := by
    rw [lower_eq_lowerBetween]
    apply lowerBetween_congr
    intro x y hxy
    simpa using h x y hxy
  refine ⟨lowerBetween [] before (s ++ after), lowerAfter (before ++ s).reverse after, ?_⟩
  rw [← hs, lower, List.append_assoc before, lowerAfter_append, lowerAfter_append, List.append_nil,
    List.reverse_append, List.append_assoc]

lemma lowerBetween_of_not_mem {s : List Char} (h : 'Σ' ∉ s) (before after : List Char) :
    lowerBetween before s after = lower s := by
  rw [lower_eq_lowerBetween]
  apply lowerBetween_congr
  rintro x y rfl
  simp at h

/-- A text that differs from another in the form of one sigma, and has no other of the first form
besides what it has in common with it, does not contain it. -/
lemma not_infix_of_form {c d : Char} (hcd : c ≠ d) {x y l r : List Char} (hl : c ∉ l) (hr : c ∉ r) :
    ¬x ++ c :: y <:+: l ++ (x ++ d :: y) ++ r := by
  intro h
  have hcount := h.sublist.count_le c
  simp [List.count_eq_zero_of_not_mem hl, List.count_eq_zero_of_not_mem hr, Ne.symm hcd] at hcount

lemma lower_append_sigma (x y : List Char) :
    lower (x ++ 'Σ' :: y) = lowerBetween [] x ('Σ' :: y) ++ sigmaForm x.reverse y ::
      lowerBetween ('Σ' :: x.reverse) y [] := by
  rw [lower_eq_lowerBetween, lowerBetween_append, List.append_nil, List.append_nil, lowerBetween,
    if_pos rfl, List.append_nil, List.singleton_append]

lemma lowerBetween_before_sigma (x z s after : List Char) :
    lowerBetween ('Σ' :: (x ++ z)) s after = lowerBetween ('Σ' :: x) s after := by
  apply lowerBetween_congr
  intro u w _
  have hspeaks : Speaks (u.reverse ++ 'Σ' :: x) := speaks_of_sigma_mem (by simp)
  have hmeets := meetsCased_append_of_speaks hspeaks z
  rw [List.append_assoc, List.cons_append] at hmeets
  rw [sigmaForm, sigmaForm, hmeets]

lemma lowerBetween_after_sigma (before s y z : List Char) :
    lowerBetween before s ('Σ' :: (y ++ z)) = lowerBetween before s ('Σ' :: y) := by
  apply lowerBetween_congr
  intro u w _
  have hspeaks : Speaks (w ++ 'Σ' :: y) := speaks_of_sigma_mem (by simp)
  have hmeets := meetsCased_append_of_speaks hspeaks z
  rw [List.append_assoc, List.cons_append] at hmeets
  rw [sigmaForm, sigmaForm, hmeets]

/-- Behind a letter the sigma becomes final that has no letter before it in the text. -/
lemma not_infix_behind_letter {x y : List Char} (hx : ¬Speaks x) (hy : ¬meetsCased y) :
    ¬lower (x ++ 'Σ' :: y) <:+: lower ('a' :: (x ++ 'Σ' :: y)) := by
  have hsigma : 'Σ' ∉ x := fun hmem => hx (speaks_of_sigma_mem hmem)
  have hplain : sigmaForm x.reverse y = 'σ' := by
    have hreverse : ¬meetsCased x.reverse := fun h => hx (speaks_reverse.1 (speaks_of_meetsCased h))
    simp [sigmaForm, hreverse]
  have hfinal : sigmaForm ('a' :: x).reverse y = 'ς' := by
    have hletter : meetsCased ['a'] := by decide +kernel
    rw [sigmaForm, List.reverse_cons,
      meetsCased_append_of_not_speaks (fun h => hx (speaks_reverse.1 h)), hletter]
    simp [hy]
  have hfirst : lowerBetween [] ('a' :: x) ('Σ' :: y) = 'a' :: lower x := by
    rw [lowerBetween, lowerBetween_of_not_mem hsigma, if_neg (by decide)]
    rfl
  rw [lower_append_sigma, hplain, lowerBetween_of_not_mem hsigma, ← List.cons_append,
    lower_append_sigma, hfinal, hfirst, List.reverse_cons, lowerBetween_before_sigma]
  have hne : ('σ' : Char) ≠ 'ς' := by decide
  simpa using not_infix_of_form hne (l := ['a']) (r := []) (by decide) (by simp)

/-- Before a letter the sigma is not final that has only characters behind it that are passed
over. -/
lemma not_infix_before_letter {x y : List Char} (hx : meetsCased x.reverse) (hy : ¬Speaks y) :
    ¬lower (x ++ 'Σ' :: y) <:+: lower (x ++ 'Σ' :: y ++ ['a']) := by
  have hsigma : 'Σ' ∉ y := fun hmem => hy (speaks_of_sigma_mem hmem)
  have hfinal : sigmaForm x.reverse y = 'ς' := by
    have hcased : ¬meetsCased y := fun h => hy (speaks_of_meetsCased h)
    simp [sigmaForm, hx, hcased]
  have hplain : sigmaForm x.reverse (y ++ ['a']) = 'σ' := by
    have hletter : meetsCased ['a'] := by decide +kernel
    rw [sigmaForm, meetsCased_append_of_not_speaks hy, hletter]
    simp
  have hrest : lowerBetween ('Σ' :: x.reverse) (y ++ ['a']) [] = lower y ++ ['a'] := by
    rw [lowerBetween_append, lowerBetween_of_not_mem hsigma]
    rfl
  rw [lower_append_sigma, hfinal, lowerBetween_of_not_mem hsigma, List.append_assoc,
    List.cons_append, lower_append_sigma, hplain, lowerBetween_after_sigma, hrest]
  have hne : ('ς' : Char) ≠ 'σ' := by decide
  simpa using not_infix_of_form hne (l := []) (r := ['a']) (by simp) (by decide)

/-- A sigma that is not settled makes a text that is not found where a letter stands beside it. -/
lemma exists_not_infix {x y : List Char} (h : ¬IsSettled x y) : ∃ before after,
    ¬lower (x ++ 'Σ' :: y) <:+: lower (before ++ (x ++ 'Σ' :: y) ++ after) := by
  obtain ⟨hy, hx⟩ : ¬meetsCased y ∧ ¬(Speaks x ∧ (meetsCased x.reverse → Speaks y)) := not_or.1 h
  by_cases hspeaks : Speaks x
  · obtain ⟨hcased, hsilent⟩ : meetsCased x.reverse ∧ ¬Speaks y := by simpa [hspeaks] using hx
    exact ⟨[], ['a'], not_infix_before_letter hcased hsilent⟩
  · refine ⟨['a'], [], ?_⟩
    rw [List.append_nil]
    exact not_infix_behind_letter hspeaks hy

lemma words_aux_of_word {s : List Char} (h : ∀ c ∈ s, ¬isBlank c) :
    s.foldr addToWords ([], []) = (s, []) := by
  induction s with
  | nil => rfl
  | cons c s ih =>
    obtain ⟨hc, hs⟩ := List.forall_mem_cons.1 h
    rw [List.foldr_cons, ih hs, addToWords, if_neg hc]

lemma words_eq_singleton {s : List Char} (hne : s ≠ []) (h : ∀ c ∈ s, ¬isBlank c) :
    words s = [s] := by
  rw [words, words_aux_of_word h]
  simp [hne]

end Text

open Text

/-- The texts in which a query is looked for. -/
def Head.texts (h : Head) : List String :=
  h.name :: (h.description.toList ++ h.aliases.map (·.name))

namespace Matcher

lemma inHead_word_iff {word : String} (hne : word ≠ "") (h : ∀ c ∈ word.toList, ¬isBlank c)
    {head : Head} :
    (ofQuery word).inHead head ↔ ∃ text ∈ head.texts, Query.WordIn word.toList text := by
  rw [inHead_ofQuery, Query.Finds, words_eq_singleton (by simpa using hne) h]
  simp [Head.texts, or_and_right, exists_or]

/-- A word that is cut out of one of the texts of an item finds it, if its capital sigmas have the
forms there that they have in the word alone. It finds every item that it can be cut out of just if
each of its sigmas is settled: a letter follows, or the text before it decides and, if a letter
stands there, the text behind it too. So a word without a capital sigma always finds. -/
theorem fragments_found_iff {word : String} (hne : word ≠ "")
    (plain : ∀ c ∈ word.toList, ¬isBlank c) :
    (∀ (head : Head) (before after : List Char),
      (∃ text ∈ head.texts, text.toList = before ++ word.toList ++ after) →
      KeepsForms before word.toList after → (ofQuery word).inHead head) ∧
    ((∀ head : Head, (∃ text ∈ head.texts, word.toList <:+: text.toList) →
        (ofQuery word).inHead head) ↔
      ∀ before after, word.toList = before ++ 'Σ' :: after → IsSettled before after) := by
  have hfound : ∀ (head : Head) (before after : List Char),
      (∃ text ∈ head.texts, text.toList = before ++ word.toList ++ after) →
      KeepsForms before word.toList after → (ofQuery word).inHead head := by
    rintro head before after ⟨text, htext, hcut⟩ hforms
    refine (inHead_word_iff hne plain).2 ⟨text, htext, ?_⟩
    rw [Query.WordIn, hcut]
    exact hforms.lower_infix
  refine ⟨hfound, fun hall before after hword => ?_, fun hsettled head hfragment => ?_⟩
  · -- An item has the text as its name in which the word is not found.
    by_contra hunsettled
    obtain ⟨left, right, hmissing⟩ := exists_not_infix hunsettled
    rw [← hword] at hmissing
    let name := String.ofList (left ++ word.toList ++ right)
    have hname : name.toList = left ++ word.toList ++ right := String.toList_ofList
    have hitem := hall ⟨name, none, none, []⟩ ⟨name, List.mem_cons_self, left, right, hname.symm⟩
    obtain ⟨text, htext, hin⟩ := (inHead_word_iff hne plain).1 hitem
    obtain rfl : text = name := List.mem_singleton.1 htext
    rw [Query.WordIn, hname] at hin
    exact hmissing hin
  · obtain ⟨text, htext, before, after, hcut⟩ := hfragment
    refine hfound head before after ⟨text, htext, hcut.symm⟩ fun x y hxy => ?_
    rw [List.reverse_append]
    exact (hsettled x y hxy).sigmaForm_eq before.reverse after

/-- The name `ΑΣΑ` is found by its fragment `ΣΑ`, as every item is that has it, but not by `ΑΣ`:
alone this ends in a final sigma. -/
theorem fragments_found_sigma :
    (∀ head : Head, (∃ text ∈ head.texts, "ΣΑ".toList <:+: text.toList) →
      (ofQuery "ΣΑ").inHead head) ∧
    (¬∀ head : Head, (∃ text ∈ head.texts, "ΑΣ".toList <:+: text.toList) →
      (ofQuery "ΑΣ").inHead head) ∧
    ¬(ofQuery "ΑΣ").inHead ⟨"ΑΣΑ", none, none, []⟩ := by
  obtain ⟨-, hfound⟩ := fragments_found_iff (show "ΣΑ" ≠ "" by decide) (by simp [isBlank])
  obtain ⟨-, hmissed⟩ := fragments_found_iff (show "ΑΣ" ≠ "" by decide) (by simp [isBlank])
  refine ⟨hfound.2 ?_, fun hall => ?_, by decide +kernel⟩
  · intro before after hword
    rcases before with _ | ⟨c, _ | ⟨d, before⟩⟩
    · obtain rfl : ['Α'] = after := by simpa using hword
      decide +kernel
    · simp at hword
    · simp at hword
  · exact absurd (hmissed.1 hall ['Α'] [] (by simp)) (by decide +kernel)

end Matcher

end MissionCatalog
