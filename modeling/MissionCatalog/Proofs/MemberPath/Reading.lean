import MissionCatalog.Proofs.MemberPath.Grammar

/-!
# Reading back member paths

A member path is read back from its text, if its names are such as can stand in a text, all its
subscripts are indices, and only its first element has no name; and what is read is such a path. Its
text is the one that it was read from but for zeros in front of indices, so that paths have one
canonical text each.
-/
namespace MissionCatalog.MemberPath

/-- All names in the path can stand in a text. -/
def HasReadableNames (p : MemberPath) : Prop := ∀ e ∈ p.elements, ∀ name ∈ e.name, IsMemberName name

/-- Paths that are written in their one way: names can stand in a text, subscripts are indices, and
only the first element may lack its name, but then has a subscript. -/
structure IsReadable (p : MemberPath) : Prop where
  ne_nil : p.elements ≠ []
  names : p.HasReadableNames
  indices : ∀ e ∈ p.elements, .any ∉ e.index
  named : ∀ e ∈ p.elements.tail, e.name ≠ none
  begins : ∀ e ∈ p.elements.head?, e.name = none → e.index ≠ []

lemma spellsIndex_chars {i : Subscript} (h : i ≠ .any) : SpellsIndex i.chars i := by
  cases i with
  | index i =>
    have hdigits : ∀ c ∈ Nat.toDigits 10 i.toNat, c.isDigit := fun c hc =>
      Nat.isDigit_of_mem_toDigits (by decide) (by decide) hc
    exact .number Nat.toDigits_ne_nil hdigits Nat.ofDigitChars_ten_toDigits
  | any => exact absurd rfl h

lemma spellsAll_subscripts {index : List Subscript} (h : .any ∉ index) :
    SpellsAll SpellsIndex (index.flatMap Subscript.chars) index :=
  .flatMap fun _ hi => spellsIndex_chars fun hany => h (hany ▸ hi)

lemma spellsAll_elements {elements : List PathElement} (named : ∀ e ∈ elements, e.name ≠ none)
    (names : ∀ e ∈ elements, ∀ name ∈ e.name, IsMemberName name)
    (indices : ∀ e ∈ elements, .any ∉ e.index) :
    SpellsAll SpellsElement (elements.flatMap PathElement.chars) elements := by
  refine .flatMap fun e he => ?_
  have hname := names e he
  have hindex := indices e he
  obtain ⟨_ | name, index⟩ := e
  · exact absurd rfl (named _ he)
  · exact .named (hname name rfl) (spellsAll_subscripts hindex)

namespace IsReadable

variable {p : MemberPath}

lemma spells (h : p.IsReadable) : Spells p.chars p := by
  obtain ⟨_ | ⟨⟨_ | name, index⟩, elements⟩⟩ := p
  · exact absurd rfl h.ne_nil
  · obtain ⟨-, hnames⟩ := List.forall_mem_cons.1 h.names
    obtain ⟨hindex, hindices⟩ := List.forall_mem_cons.1 h.indices
    exact .subscripted (h.begins _ rfl rfl) (spellsAll_subscripts hindex)
      (spellsAll_elements h.named hnames hindices)
  · have hnamed : ∀ e ∈ (⟨some name, index⟩ :: elements : List PathElement), e.name ≠ none :=
      List.forall_mem_cons.2 ⟨Option.some_ne_none name, h.named⟩
    exact .named (List.cons_ne_nil _ _) (spellsAll_elements hnamed h.names h.indices)

/-- A path that is written in its one way is read back from its text. -/
theorem parse_text (h : p.IsReadable) : parse p.text = .ok p := by
  rw [parse_eq_ok_iff, text, String.toList_ofList]
  exact h.spells

end IsReadable

lemma Spells.isReadable {s : List Char} {p : MemberPath} (h : Spells s p) : p.IsReadable := by
  have hnames : ∀ {e : PathElement}, (∃ name ∈ e.name, IsMemberName name) →
      e.name ≠ none ∧ ∀ name ∈ e.name, IsMemberName name := by
    intro e he
    obtain ⟨name, hname, hreadable⟩ := he
    rw [Option.mem_def] at hname
    simp [hname, hreadable]
  have hindices : ∀ e ∈ p.elements, .any ∉ e.index := fun e he => (h.isSelector e he).1
  have hbegins : ∀ e ∈ p.elements.head?, e.name = none → e.index ≠ [] := fun e he =>
    (h.isSelector e (List.mem_of_mem_head? he)).2
  cases h with
  | named ne_nil spelled =>
    have hall := spelled.forall_mem SpellsElement.isNamed
    exact ⟨ne_nil, fun e he => (hnames (hall e he).1).2, hindices,
      fun e he => (hnames (hall e (List.mem_of_mem_tail he)).1).1, hbegins⟩
  | subscripted ne_nil subscripts spelled =>
    have hall := spelled.forall_mem SpellsElement.isNamed
    exact ⟨List.cons_ne_nil _ _,
      List.forall_mem_cons.2 ⟨by simp, fun e he => (hnames (hall e he).1).2⟩, hindices,
      fun e he => (hnames (hall e he).1).1, hbegins⟩

theorem isReadable_of_parse {s : String} {p : MemberPath} (h : parse s = .ok p) : p.IsReadable :=
  (parse_eq_ok_iff.1 h).isReadable

/-- The text without the zeros in front of its indices. A zero is left out where an index begins, or
where zeros that are left out end, as `opened` says, and only if another digit follows. -/
def dropZeros (opened : Bool) : List Char → List Char
  | [] => []
  | c :: s =>
    if opened ∧ c = '0' ∧ s.head?.any Char.isDigit then dropZeros opened s
    else c :: dropZeros (c = '[') s

lemma digitChar_of_isDigit {c : Char} (h : c.isDigit) :
    Nat.digitChar (c.toNat - '0'.toNat) = c ∧ c.toNat - '0'.toNat < 10 := by
  have hdigits : ∀ n : Fin 10, Nat.digitChar n = Char.ofNat (48 + n) := by decide
  obtain ⟨hlow, hhigh⟩ : 48 ≤ c.toNat ∧ c.toNat ≤ 57 := by simpa using Char.isDigit_iff_toNat.1 h
  have hlt : c.toNat - 48 < 10 := by omega
  refine ⟨?_, hlt⟩
  have hdigit := hdigits ⟨c.toNat - 48, hlt⟩
  rwa [Nat.add_sub_cancel' hlow, Char.ofNat_toNat] at hdigit

/-- Digits behind a number that is not zero are written as they are read. -/
lemma toDigits_ofDigitChars {n : ℕ} (hn : 0 < n) {digits : List Char}
    (h : ∀ c ∈ digits, c.isDigit) :
    Nat.toDigits 10 (Nat.ofDigitChars 10 digits n) = Nat.toDigits 10 n ++ digits := by
  induction digits generalizing n with
  | nil => simp
  | cons c digits ih =>
    obtain ⟨hc, hdigits⟩ := List.forall_mem_cons.1 h
    obtain ⟨hchar, hlt⟩ := digitChar_of_isDigit hc
    rw [Nat.ofDigitChars_cons, ih (by omega) hdigits,
      ← Nat.toDigits_append_toDigits (by decide) hn hlt, Nat.toDigits_of_lt_base hlt, hchar,
      List.append_assoc, List.singleton_append]

/-- Digits without a zero in front, and a zero alone, are written as they are read. -/
lemma toDigits_ofDigitChars_cons {c : Char} {digits : List Char} (hc : c.isDigit)
    (h : ∀ d ∈ digits, d.isDigit) (first : c = '0' → digits = []) :
    Nat.toDigits 10 (Nat.ofDigitChars 10 (c :: digits) 0) = c :: digits := by
  obtain ⟨hchar, hlt⟩ := digitChar_of_isDigit hc
  rw [Nat.ofDigitChars_cons, Nat.mul_zero, Nat.zero_add]
  by_cases hzero : c = '0'
  · rw [first hzero, Nat.ofDigitChars_nil, Nat.toDigits_of_lt_base hlt, hchar]
  · have hpos : 0 < c.toNat - '0'.toNat := by
      refine Nat.pos_of_ne_zero fun hvalue => hzero ?_
      rw [← hchar, hvalue]
      rfl
    rw [toDigits_ofDigitChars hpos h, Nat.toDigits_of_lt_base hlt, hchar, List.singleton_append]

lemma dropZeros_append {s : List Char} (h : '[' ∉ s) (t : List Char) :
    dropZeros false (s ++ t) = s ++ dropZeros false t := by
  induction s with
  | nil => rfl
  | cons c s ih =>
    obtain ⟨hc, hs⟩ := List.ne_and_not_mem_of_not_mem_cons h
    simp [dropZeros, Ne.symm hc, ih hs]

lemma opening_not_mem_of_isDigit {digits : List Char} (h : ∀ c ∈ digits, c.isDigit) :
    '[' ∉ digits := fun hmem => absurd (h _ hmem) (by decide)

/-- Of the digits of an index those are left with which its value is written. -/
lemma dropZeros_digits {digits : List Char} (ne_nil : digits ≠ [])
    (isDigit : ∀ c ∈ digits, c.isDigit) (t : List Char) :
    dropZeros true (digits ++ ']' :: t) =
      Nat.toDigits 10 (Nat.ofDigitChars 10 digits 0) ++ ']' :: dropZeros false t := by
  induction digits with
  | nil => exact absurd rfl ne_nil
  | cons c digits ih =>
    obtain ⟨hc, hdigits⟩ := List.forall_mem_cons.1 isDigit
    by_cases hfirst : c = '0' → digits = []
    · have hkept : ¬(true ∧ c = '0' ∧ (digits ++ ']' :: t).head?.any Char.isDigit) := by
        rintro ⟨-, hzero, hnext⟩
        rw [hfirst hzero] at hnext
        exact absurd hnext Bool.false_ne_true
      have hopens : '[' ∉ c :: digits := opening_not_mem_of_isDigit isDigit
      have hother : decide (c = '[') = false :=
        decide_eq_false fun heq => hopens (heq ▸ List.mem_cons_self)
      rw [List.cons_append, dropZeros, if_neg hkept, hother,
        dropZeros_append (opening_not_mem_of_isDigit hdigits),
        toDigits_ofDigitChars_cons hc hdigits hfirst]
      rfl
    · obtain ⟨rfl, hne⟩ := Classical.not_imp.1 hfirst
      obtain ⟨d, digits, rfl⟩ := List.exists_cons_of_ne_nil hne
      have hd : d.isDigit := hdigits d List.mem_cons_self
      rw [List.cons_append, dropZeros, if_pos ⟨rfl, rfl, by simpa using hd⟩, ih hne hdigits]
      rfl

lemma SpellsAll.dropZeros_append {α : Type} {spells : List Char → α → Prop} {write : α → List Char}
    {s : List Char} {as : List α} (h : SpellsAll spells s as)
    (hone : ∀ {s a}, spells s a → ∀ t, dropZeros false (s ++ t) = write a ++ dropZeros false t)
    (t : List Char) : dropZeros false (s ++ t) = as.flatMap write ++ dropZeros false t := by
  induction h with
  | nil => rfl
  | cons head rest ih =>
    rw [List.append_assoc, hone head, ih, List.flatMap_cons, List.append_assoc]

lemma SpellsIndex.dropZeros_append {s : List Char} {i : Subscript} (h : SpellsIndex s i)
    (t : List Char) : dropZeros false (s ++ t) = i.chars ++ dropZeros false t := by
  cases h with
  | @number digits i ne_nil isDigit value =>
    have hdigits := dropZeros_digits ne_nil isDigit t
    rw [value] at hdigits
    simp [dropZeros, hdigits, Subscript.chars]

lemma SpellsElement.dropZeros_append {s : List Char} {e : PathElement} (h : SpellsElement s e)
    (t : List Char) : dropZeros false (s ++ t) = e.chars ++ dropZeros false t := by
  cases h with
  | @named name s index isName subscripts =>
    have hname : '[' ∉ '.' :: name.toList := by
      rw [List.mem_cons, not_or]
      exact ⟨by decide, fun hmem => (isName.2 _ hmem).1 (by decide)⟩
    rw [← List.cons_append, List.append_assoc, MemberPath.dropZeros_append hname,
      subscripts.dropZeros_append SpellsIndex.dropZeros_append, ← List.append_assoc]
    rfl

lemma Spells.dropZeros_eq {s : List Char} {p : MemberPath} (h : Spells s p) :
    dropZeros false s = p.chars := by
  cases h with
  | named ne_nil spelled =>
    simpa [dropZeros, chars] using spelled.dropZeros_append SpellsElement.dropZeros_append []
  | @subscripted s t index elements ne_nil subscripts spelled =>
    have helements := spelled.dropZeros_append SpellsElement.dropZeros_append []
    rw [List.append_nil] at helements
    rw [subscripts.dropZeros_append SpellsIndex.dropZeros_append, helements]
    simp [dropZeros, chars, PathElement.chars]

/-- Reading and writing are inverse to each other. A readable path is read back from its text, only
readable paths are read, and what is written of a path that was read is the text it was read from,
without the zeros in front of its indices. So two texts that can be read are written alike just if
they are read as one path. -/
theorem text_canonical : (∀ p : MemberPath, p.IsReadable → parse p.text = .ok p) ∧
    (∀ s p, parse s = .ok p → p.IsReadable ∧ p.text.toList = dropZeros false s.toList) ∧
    ∀ s s' p p', parse s = .ok p → parse s' = .ok p' → (p.text = p'.text ↔ p = p') := by
  refine ⟨fun p => IsReadable.parse_text, fun s p h => ⟨isReadable_of_parse h, ?_⟩,
    fun s s' p p' h h' => ⟨fun htext => ?_, fun heq => congrArg text heq⟩⟩
  · rw [(parse_eq_ok_iff.1 h).dropZeros_eq, text, String.toList_ofList]
  · have hread := (isReadable_of_parse h).parse_text
    rw [htext, (isReadable_of_parse h').parse_text] at hread
    exact (Except.ok.inj hread).symm

/-- Only zeros in front of an index are left out, and of an index of zeros all but the last. -/
theorem text_canonical_zeros : ∃ p, parse ".a0[007][000][10]" = .ok p ∧
    parse ".a0[7][00][010]" = .ok p ∧ p.text.toList = ".a0[7][0][10]".toList ∧
    parse p.text = .ok p := by
  have hread : parse ".a0[007][000][10]" =
      .ok ⟨[⟨some "a0", [.index 7, .index 0, .index 10]⟩]⟩ := by decide +kernel
  have hzeros : dropZeros false ".a0[007][000][10]".toList = ".a0[7][0][10]".toList := by
    decide +kernel
  obtain ⟨hback, hwritten, -⟩ := text_canonical
  obtain ⟨hreadable, htext⟩ := hwritten _ _ hread
  exact ⟨_, hread, by decide +kernel, htext.trans hzeros, hback _ hreadable⟩

end MissionCatalog.MemberPath
