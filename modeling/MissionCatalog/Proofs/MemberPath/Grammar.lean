import MissionCatalog.MemberPath.Parser
import MissionCatalog.Proofs.Except

/-!
# The grammar of member paths

`Spells` says which texts spell a path, without a word about reading: elements one after another, each
a name with subscripts behind it, the first perhaps without its name. `parse_exact` says that a text is
read just if it spells a path, and then as this path. Between the two stand the parts, the names and
subscripts of a path in one row: a text is cut into the parts that it spells, and these are grouped into
elements.
-/
namespace MissionCatalog

/-- The name of a member can stand in the text of a path. -/
def IsMemberName (s : String) : Prop :=
  s ≠ "" ∧ ∀ c ∈ s.toList, ¬MemberPath.startsElement c ∧ c ≠ ']' ∧ c ≠ '/'

namespace MemberPath

/-- The text is made of texts that spell the items, one after another. -/
inductive SpellsAll {α : Type} (spells : List Char → α → Prop) : List Char → List α → Prop
  | nil : SpellsAll spells [] []
  | cons {s t : List Char} {a : α} {as : List α} (head : spells s a) (rest : SpellsAll spells t as) :
      SpellsAll spells (s ++ t) (a :: as)

/-- A subscript is a number in brackets: one or more digits, the first of them perhaps zeros, with a
value below `2 ^ 64`. -/
inductive SpellsIndex : List Char → Subscript → Prop
  | number {digits : List Char} {i : UInt64} (ne_nil : digits ≠ [])
      (isDigit : ∀ c ∈ digits, c.isDigit) (value : Nat.ofDigitChars 10 digits 0 = i.toNat) :
      SpellsIndex ('[' :: (digits ++ [']'])) (.index i)

/-- A dot, a name, and the subscripts behind it. -/
inductive SpellsElement : List Char → PathElement → Prop
  | named {name : String} {s : List Char} {index : List Subscript} (isName : IsMemberName name)
      (subscripts : SpellsAll SpellsIndex s index) :
      SpellsElement ('.' :: (name.toList ++ s)) ⟨some name, index⟩

/-- The text spells the path. -/
inductive Spells : List Char → MemberPath → Prop
  | named {s : List Char} {elements : List PathElement} (ne_nil : elements ≠ [])
      (spelled : SpellsAll SpellsElement s elements) : Spells s ⟨elements⟩
  /-- The first element is only subscripts. -/
  | subscripted {s t : List Char} {index : List Subscript} {elements : List PathElement}
      (ne_nil : index ≠ []) (subscripts : SpellsAll SpellsIndex s index)
      (spelled : SpellsAll SpellsElement t elements) : Spells (s ++ t) ⟨⟨none, index⟩ :: elements⟩

namespace SpellsAll

variable {α : Type} {spells : List Char → α → Prop} {s : List Char} {as : List α}

lemma flatMap {write : α → List Char} (h : ∀ a ∈ as, spells (write a) a) :
    SpellsAll spells (as.flatMap write) as := by
  induction as with
  | nil => exact .nil
  | cons a as ih =>
    obtain ⟨ha, has⟩ := List.forall_mem_cons.1 h
    exact .cons ha (ih has)

lemma forall_mem {P : α → Prop} (h : SpellsAll spells s as) (hP : ∀ {s a}, spells s a → P a) :
    ∀ a ∈ as, P a := by
  induction h with
  | nil => simp
  | cons head rest ih => exact List.forall_mem_cons.2 ⟨hP head, ih⟩

lemma not_mem_text {c : Char} (h : SpellsAll spells s as) (hc : ∀ {s a}, spells s a → c ∉ s) :
    c ∉ s := by
  induction h with
  | nil => simp
  | cons head rest ih =>
    rw [List.mem_append, not_or]
    exact ⟨hc head, ih⟩

end SpellsAll

/-- The text spells one part of a path: a name, or a subscript. -/
inductive SpellsPart : List Char → Part → Prop
  | name {s : String} (isName : IsMemberName s) : SpellsPart ('.' :: s.toList) (.name s)
  | index {s : List Char} {i : UInt64} (spelled : SpellsIndex s (.index i)) :
      SpellsPart s (.index i)

lemma not_startsElement_of_isDigit {c : Char} (h : c.isDigit) : ¬startsElement c := by
  intro hs
  simp only [startsElement, Bool.or_eq_true, beq_iff_eq] at hs
  rcases hs with rfl | rfl <;> simp [Char.isDigit] at h

/-- A part begins with a dot or a bracket, and has none behind it. -/
lemma SpellsPart.exists_piece {s : List Char} {part : Part} (h : SpellsPart s part) :
    ∃ c body, s = c :: body ∧ startsElement c ∧ ∀ x ∈ body, ¬startsElement x := by
  cases h with
  | @name name isName => exact ⟨'.', name.toList, rfl, rfl, fun x hx => (isName.2 x hx).1⟩
  | index spelled =>
    cases spelled with
    | @number digits _ _ isDigit _ =>
      refine ⟨'[', digits ++ [']'], rfl, rfl, ?_⟩
      intro x hx
      rcases List.mem_append.1 hx with hx | hx
      · exact not_startsElement_of_isDigit (isDigit x hx)
      · rw [List.mem_singleton.1 hx]
        decide

lemma SpellsPart.slash_not_mem {s : List Char} {part : Part} (h : SpellsPart s part) : '/' ∉ s := by
  cases h with
  | name isName =>
    rw [List.mem_cons, not_or]
    exact ⟨by decide, fun hs => (isName.2 _ hs).2.2 rfl⟩
  | index spelled =>
    cases spelled with
    | number ne_nil isDigit value =>
      simp only [List.mem_cons, List.mem_append, List.not_mem_nil, or_false, not_or]
      exact ⟨by decide, fun hs => by simpa [Char.isDigit] using isDigit _ hs, by decide⟩

lemma readName_eq_ok_iff {body : List Char} (plain : ∀ c ∈ body, ¬startsElement c) {part : Part} :
    readName body = .ok part ↔ SpellsPart ('.' :: body) part := by
  constructor
  · intro h
    unfold readName at h
    split at h
    · simp at h
    · next hfind =>
      split at h
      · simp at h
      · next hne =>
        obtain rfl := Except.ok.inj h
        have hname : IsMemberName (String.ofList body) := by
          refine ⟨by simpa using hne, fun c hc => ?_⟩
          rw [String.toList_ofList] at hc
          have hc' := List.find?_eq_none.1 hfind c hc
          simp only [Bool.or_eq_true, beq_iff_eq, not_or] at hc'
          exact ⟨plain c hc, hc'⟩
        simpa using SpellsPart.name hname
  · intro h
    generalize hs : '.' :: body = s at h
    cases h with
    | @name name isName =>
      obtain rfl : body = name.toList := (List.cons.inj hs).2
      have hfind : name.toList.find? (fun c => c == ']' || c == '/') = none := by
        apply List.find?_eq_none.2
        intro c hc
        simp [(isName.2 c hc).2]
      have hne : name.toList.isEmpty = false := by simpa using isName.1
      simp [readName, hfind, hne]
    | index spelled =>
      cases spelled with
      | number => simp at hs

lemma readIndex_eq_ok_iff {next : Option Char} {body : List Char} {part : Part} :
    readIndex next body = .ok part ↔ SpellsPart ('[' :: body) part := by
  constructor
  · intro h
    have hbody := List.takeWhile_append_dropWhile (p := Char.isDigit) (l := body)
    have hdigits : ∀ c ∈ body.takeWhile Char.isDigit, c.isDigit := fun c hc =>
      List.mem_takeWhile_imp hc
    unfold readIndex at h
    split at h
    · split at h <;> simp at h
    · next rest hrest =>
      rw [hrest] at hbody
      dsimp only at h
      generalize body.takeWhile Char.isDigit = digits at *
      split_ifs at h with hvalue hend
      obtain rfl := Except.ok.inj h
      obtain ⟨hne, hlt⟩ := not_or.1 hvalue
      obtain rfl : rest = [] := by simpa using hend
      subst hbody
      refine .index (.number (by simpa using hne) hdigits ?_)
      rw [UInt64.toNat_ofNat_of_lt' (Nat.not_le.1 hlt)]
    · simp at h
  · intro h
    generalize hs : '[' :: body = s at h
    cases h with
    | name isName => simp at hs
    | @index _ i spelled =>
      cases spelled with
      | @number digits _ ne_nil isDigit value =>
        obtain rfl : body = digits ++ [']'] := (List.cons.inj hs).2
        have hdrop : (digits ++ [']']).dropWhile Char.isDigit = [']'] := by
          rw [List.dropWhile_append_of_pos isDigit]
          rfl
        have htake : (digits ++ [']']).takeWhile Char.isDigit = digits := by
          rw [List.takeWhile_append_of_pos isDigit, List.takeWhile_cons_of_neg (by decide),
            List.append_nil]
        have hlt : ¬UInt64.size ≤ i.toNat := Nat.not_le.2 i.toNat_lt
        simp [readIndex, hdrop, htake, value, hlt, ne_nil]

lemma readParts_cons_eq_ok_iff {c : Char} {body : List Char} {rest : List (Char × List Char)}
    (starts : startsElement c) (plain : ∀ x ∈ body, ¬startsElement x) {parts : List Part} :
    readParts ((c, body) :: rest) = .ok parts ↔ ∃ part others, SpellsPart (c :: body) part ∧
      readParts rest = .ok others ∧ part :: others = parts := by
  simp only [startsElement, Bool.or_eq_true, beq_iff_eq] at starts
  rcases starts with rfl | rfl
  · rw [readParts, if_pos rfl]
    simp only [bind_eq_ok, readName_eq_ok_iff plain, pure, Except.pure, Except.ok.injEq,
      exists_and_left]
  · rw [readParts, if_neg (by decide)]
    simp only [bind_eq_ok, readIndex_eq_ok_iff, pure, Except.pure, Except.ok.injEq, exists_and_left]

lemma readParts_eq_ok_iff {pieces : List (Char × List Char)}
    (h : ∀ p ∈ pieces, startsElement p.1 ∧ ∀ c ∈ p.2, ¬startsElement c) {parts : List Part} :
    readParts pieces = .ok parts ↔
      List.Forall₂ (fun p part => SpellsPart (p.1 :: p.2) part) pieces parts := by
  induction pieces generalizing parts with
  | nil => simp [readParts, eq_comm]
  | cons p pieces ih =>
    obtain ⟨⟨starts, plain⟩, hpieces⟩ := List.forall_mem_cons.1 h
    rw [readParts_cons_eq_ok_iff starts plain, List.forall₂_cons_left_iff]
    simp only [ih hpieces, exists_and_left, eq_comm]

lemma pieces_append_of_plain {body : List Char} (h : ∀ c ∈ body, ¬startsElement c)
    (s : List Char) : pieces (body ++ s) = (body ++ (pieces s).1, (pieces s).2) := by
  induction body with
  | nil => rfl
  | cons c body ih =>
    obtain ⟨hc, hbody⟩ := List.forall_mem_cons.1 h
    rw [List.cons_append, pieces, ih hbody]
    simp [hc]

lemma pieces_of_spellsAll {s : List Char} {parts : List Part} (h : SpellsAll SpellsPart s parts) :
    ∃ ps, pieces s = ([], ps) ∧
      List.Forall₂ (fun p part => SpellsPart (p.1 :: p.2) part) ps parts := by
  induction h with
  | nil => exact ⟨[], rfl, .nil⟩
  | cons head rest ih =>
    obtain ⟨c, body, rfl, hstarts, hplain⟩ := head.exists_piece
    obtain ⟨ps, hps, hspelled⟩ := ih
    refine ⟨(c, body) :: ps, ?_, .cons head hspelled⟩
    rw [List.cons_append, pieces, pieces_append_of_plain hplain, hps]
    simp [hstarts]

lemma spellsAll_of_forall₂ {ps : List (Char × List Char)} {parts : List Part}
    (h : List.Forall₂ (fun p part => SpellsPart (p.1 :: p.2) part) ps parts) :
    SpellsAll SpellsPart (ps.flatMap fun p => p.1 :: p.2) parts := by
  induction h with
  | nil => exact .nil
  | cons head rest ih => exact .cons head ih

lemma readParts_pieces_iff {s : List Char} {parts : List Part} :
    (∃ ps, pieces s = ([], ps) ∧ readParts ps = .ok parts) ↔ SpellsAll SpellsPart s parts := by
  have hpieces := @startsElement_of_mem_pieces s
  constructor
  · intro h
    obtain ⟨ps, hps, hparts⟩ := h
    have happend := pieces_append s
    rw [hps] at hpieces happend
    rw [← happend]
    exact spellsAll_of_forall₂ ((readParts_eq_ok_iff fun p hp => hpieces hp).1 hparts)
  · intro h
    obtain ⟨ps, hps, hspelled⟩ := pieces_of_spellsAll h
    rw [hps] at hpieces
    exact ⟨ps, hps, (readParts_eq_ok_iff fun p hp => hpieces hp).2 hspelled⟩

/-- What parts are grouped into is spelled by the same text: the subscripts that lack their name, then
the elements. -/
lemma spelled_of_parts {s : List Char} {parts : List Part} (h : SpellsAll SpellsPart s parts) :
    ∃ before behind, s = before ++ behind ∧
      SpellsAll SpellsIndex before (parts.foldr addPart ([], [])).1 ∧
      SpellsAll SpellsElement behind (parts.foldr addPart ([], [])).2 := by
  induction h with
  | nil => exact ⟨[], [], rfl, .nil, .nil⟩
  | @cons s t part parts head rest ih =>
    obtain ⟨before, behind, rfl, hindex, helements⟩ := ih
    cases head with
    | name isName =>
      exact ⟨[], _, rfl, .nil, by simpa [addPart] using helements.cons (.named isName hindex)⟩
    | index spelled =>
      exact ⟨s ++ before, behind, (List.append_assoc _ _ _).symm, .cons spelled hindex, helements⟩

lemma parts_of_subscripts {s : List Char} {index : List Subscript}
    (h : SpellsAll SpellsIndex s index) {t : List Char} {parts : List Part}
    {elements : List PathElement} (ht : SpellsAll SpellsPart t parts)
    (hparts : parts.foldr addPart ([], []) = ([], elements)) :
    ∃ all, SpellsAll SpellsPart (s ++ t) all ∧
      all.foldr addPart ([], []) = (index, elements) := by
  induction h with
  | nil => exact ⟨parts, ht, hparts⟩
  | @cons s _ _ index head rest ih =>
    obtain ⟨all, hall, hfold⟩ := ih
    cases head with
    | @number _ i ne_nil isDigit value =>
      refine ⟨.index i :: all, ?_, by rw [List.foldr_cons, hfold, addPart]⟩
      rw [List.append_assoc]
      exact .cons (.index (.number ne_nil isDigit value)) hall

lemma parts_of_elements {t : List Char} {elements : List PathElement}
    (h : SpellsAll SpellsElement t elements) :
    ∃ parts, SpellsAll SpellsPart t parts ∧
      parts.foldr addPart ([], []) = ([], elements) := by
  induction h with
  | nil => exact ⟨[], .nil, rfl⟩
  | @cons s t e elements head rest ih =>
    obtain ⟨parts, hparts, hfold⟩ := ih
    cases head with
    | @named name s index isName subscripts =>
      obtain ⟨all, hall, hfold⟩ := parts_of_subscripts subscripts hparts hfold
      refine ⟨.name name :: all, ?_, by rw [List.foldr_cons, hfold, addPart]⟩
      simpa using hall.cons (.name isName)

/-- A text spells a path just if it spells parts that are grouped into the path. -/
lemma spells_iff_parts {s : List Char} {p : MemberPath} :
    Spells s p ↔ ∃ parts, parts ≠ [] ∧ SpellsAll SpellsPart s parts ∧ ⟨groupParts parts⟩ = p := by
  constructor
  · intro h
    cases h with
    | @named _ elements ne_nil spelled =>
      obtain ⟨parts, hparts, hfold⟩ := parts_of_elements spelled
      refine ⟨parts, ?_, hparts, by rw [groupParts, hfold]⟩
      rintro rfl
      exact ne_nil (congrArg Prod.snd hfold).symm
    | @subscripted _ _ index elements ne_nil subscripts spelled =>
      obtain ⟨parts, hparts, hfold⟩ := parts_of_elements spelled
      obtain ⟨all, hall, hfold⟩ := parts_of_subscripts subscripts hparts hfold
      obtain ⟨i, index, rfl⟩ := List.exists_cons_of_ne_nil ne_nil
      refine ⟨all, ?_, hall, by rw [groupParts, hfold]⟩
      rintro rfl
      simp at hfold
  · rintro ⟨parts, hne, hparts, rfl⟩
    obtain ⟨before, behind, rfl, hindex, helements⟩ := spelled_of_parts hparts
    have hchars := chars_foldr_addPart parts
    rw [groupParts]
    generalize parts.foldr addPart ([], []) = grouped at *
    obtain ⟨_ | ⟨i, index⟩, elements⟩ := grouped
    · cases hindex
      refine .named ?_ helements
      -- Parts are never empty, so some element comes of them.
      rintro rfl
      obtain ⟨part, parts, rfl⟩ := List.exists_cons_of_ne_nil hne
      cases part <;> simp [Part.chars, Subscript.chars] at hchars
    · exact .subscripted (List.cons_ne_nil i index) hindex helements

lemma parse_eq_ok_iff {s : String} {p : MemberPath} : parse s = .ok p ↔ Spells s.toList p := by
  rw [spells_iff_parts, parse]
  generalize s.toList = text
  constructor
  · intro h
    split at h
    · next parts hread =>
      split at hread
      · next first rest hpieces =>
        have hspelled := readParts_pieces_iff.1 ⟨_, hpieces, hread⟩
        refine ⟨parts, ?_, hspelled, Except.ok.inj h⟩
        rintro rfl
        cases hspelled
        simp [pieces] at hpieces
      · simp at hread
    · simp at h
  · intro h
    obtain ⟨parts, hne, hspelled, rfl⟩ := h
    obtain ⟨ps, hpieces, hread⟩ := readParts_pieces_iff.2 hspelled
    cases ps with
    | nil => exact absurd (Except.ok.inj hread).symm hne
    | cons first rest => simp only [hpieces, hread]

lemma SpellsIndex.ne_any {s : List Char} {i : Subscript} (h : SpellsIndex s i) : i ≠ .any := by
  cases h
  simp

lemma any_not_mem_of_spellsAll {s : List Char} {index : List Subscript}
    (h : SpellsAll SpellsIndex s index) : .any ∉ index :=
  fun hany => h.forall_mem SpellsIndex.ne_any _ hany rfl

lemma SpellsElement.isNamed {s : List Char} {e : PathElement} (h : SpellsElement s e) :
    (∃ name ∈ e.name, IsMemberName name) ∧ .any ∉ e.index := by
  cases h with
  | named isName subscripts => exact ⟨⟨_, rfl, isName⟩, any_not_mem_of_spellsAll subscripts⟩

namespace Spells

variable {s : List Char} {p : MemberPath}

lemma isSelector (h : Spells s p) :
    ∀ e ∈ p.elements, .any ∉ e.index ∧ (e.name = none → e.index ≠ []) := by
  have hnamed : ∀ {t elements}, SpellsAll SpellsElement t elements →
      ∀ e ∈ elements, .any ∉ e.index ∧ (e.name = none → e.index ≠ []) := by
    intro t elements helements e he
    obtain ⟨⟨name, hname, -⟩, hindex⟩ := helements.forall_mem SpellsElement.isNamed e he
    refine ⟨hindex, fun hnone => ?_⟩
    simp [hnone] at hname
  cases h with
  | named ne_nil spelled => exact hnamed spelled
  | subscripted ne_nil subscripts spelled =>
    exact List.forall_mem_cons.2
      ⟨⟨any_not_mem_of_spellsAll subscripts, fun _ => ne_nil⟩, hnamed spelled⟩

lemma exists_cons (h : Spells s p) : ∃ c cs, s = c :: cs ∧ startsElement c := by
  obtain ⟨parts, hne, hparts, -⟩ := spells_iff_parts.1 h
  cases hparts with
  | nil => exact absurd rfl hne
  | cons head rest =>
    obtain ⟨c, body, rfl, hstarts, -⟩ := head.exists_piece
    exact ⟨c, _, List.cons_append, hstarts⟩

lemma slash_not_mem (h : Spells s p) : '/' ∉ s := by
  obtain ⟨parts, -, hparts, -⟩ := spells_iff_parts.1 h
  exact hparts.not_mem_text SpellsPart.slash_not_mem

end Spells

/-- A text is read just if it spells a path, and then as this path: no element of it is without a name
and a subscript, and no subscript stands for every element of an array. -/
theorem parse_exact (s : String) : (∀ p, parse s = .ok p ↔ Spells s.toList p) ∧
    ∀ p, parse s = .ok p →
      ∀ e ∈ p.elements, .any ∉ e.index ∧ (e.name = none → e.index ≠ []) :=
  ⟨fun _ => parse_eq_ok_iff, fun _ h => (parse_eq_ok_iff.1 h).isSelector⟩

/-- Zeros in front of an index are read over. -/
theorem parse_exact_zeros : ∃ p, parse "[1].b[007]" = .ok p ∧ Spells "[1].b[007]".toList p ∧
    ∀ e ∈ p.elements, .any ∉ e.index ∧ (e.name = none → e.index ≠ []) := by
  have hread : parse "[1].b[007]" =
      .ok ⟨[⟨none, [.index 1]⟩, ⟨some "b", [.index 7]⟩]⟩ := by decide +kernel
  obtain ⟨hspells, hselectors⟩ := parse_exact "[1].b[007]"
  exact ⟨_, hread, (hspells _).1 hread, hselectors _ hread⟩

end MemberPath

end MissionCatalog
