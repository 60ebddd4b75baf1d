import MissionCatalog.Proofs.ByteOffset
import MissionCatalog.Proofs.Resolve.Member

/-!
# Cutting the paths of parameters

Here paths are cut at byte offsets that are found by searching, and every cut is checked. No check ever
fails, and what comes out is what `MemberPath.suffixOffset?`, `Name.split?` and
`Database.resolveParameter` give. A path so falls into a namespace, a name and the text of a member path
just if it is made of such parts, and there is one way to do that.
-/
namespace MissionCatalog
open Name MemberPath Text

def MemberPath.separatorOffset (path : String) : Except OffsetFault (Option ℕ) := do
  let start := ((lastOffset? '/' path.toList).map (· + 1)).getD 0
  let (_, segment) ← cutAt path start
  return (firstOffset? startsElement segment.toList).map (· + start)

/-- The path before and behind the offset where its member path begins. -/
def MemberPath.cutAtSeparator (path : String) : Except OffsetFault (String × String) := do
  match ← separatorOffset path with
  | none => return (path, "")
  | some offset => cutAt path offset

/-- The path before and behind its last slash, unless the slash is the last byte. -/
def Name.splitAtOffset (path : String) : Except OffsetFault (Option (String × String)) :=
  match lastOffset? '/' path.toList with
  | none => .ok none
  | some slash => do
    if slash = (← oneBelow path.utf8ByteSize) then return none
    else
      let (ns, _) ← cutAt path slash
      let (_, name) ← cutAt path (slash + 1)
      return some (ns, name)

namespace Table

variable {α : Type} [Declared α]

def ofParts (t : Table α) : Option (String × String) → Except QueryError (Resolved α)
  | none => .error (.missingNamespace (Declared.kind α))
  | some (ns, name) =>
    if ns = "" then .error (.missingNamespace (Declared.kind α))
    else
      match t.lookup? ns name with
      | some found => .ok found
      | none => .error (.noSuch (Declared.kind α))

lemma ofParts_split? (t : Table α) (path : String) : t.ofParts (split? path) = t.resolve path := by
  rw [resolve]
  cases split? path <;> rfl

def resolveAtOffset (t : Table α) (path : String) :
    Except OffsetFault (Except QueryError (Resolved α)) :=
  (splitAtOffset path).map t.ofParts

end Table

namespace Database

/-- The reference to a parameter that was found by the path, and to the member of it. -/
def refer (path : String) (member : Option MemberPath) :
    Except QueryError (Resolved Parameter) → Except QueryError ParameterRef
  | .ok ⟨parameter, id⟩ =>
    .ok ⟨parameter, { id with name := id.name ++ (member.map MemberPath.text).getD "" }, member⟩
  | .error (.noSuch _) => .error (.noParameter path)
  | .error e => .error e

def resolveParameterAtOffset (db : Database) (path : String) :
    Except OffsetFault (Except QueryError ParameterRef) := do
  match ← separatorOffset path with
  | none => return refer path none (← (db.table .parameter).resolveAtOffset path)
  | some offset =>
    let (base, suffix) ← cutAt path offset
    match MemberPath.parse suffix with
    | .error cause => return .error (.badMemberPath path cause)
    | .ok member => return refer path (some member) (← (db.table .parameter).resolveAtOffset base)

end Database

namespace MemberPath

lemma suffixOffset?_eq (path : String) : suffixOffset? path =
    if (splitSuffix path.toList).2 = [] then none
    else some (byteSize (splitSuffix path.toList).1) := by
  rw [suffixOffset?]
  generalize splitSuffix path.toList = cut
  obtain ⟨before, _ | ⟨c, suffix⟩⟩ := cut <;> rfl

lemma byteSize_append_slash (ns name : List Char) :
    byteSize (ns ++ '/' :: name) = byteSize ns + 1 + byteSize name := by
  rw [byteSize_append, byteSize_cons, ← add_assoc]
  rfl

lemma cutAt_segment {path : String} {ns name : List Char}
    (h : splitLast '/' path.toList = some (ns, name)) :
    cutAt path (byteSize ns + 1) = .ok (String.ofList (ns ++ ['/']), String.ofList name) := by
  have hpath : path = String.ofList ((ns ++ ['/']) ++ name) := by
    rw [← String.toList_inj]
    simp [(eq_append_of_splitLast h).1]
  have hsize : byteSize (ns ++ ['/']) = byteSize ns + 1 := byteSize_append_slash ns []
  rw [hpath, ← hsize, cutAt_append]

lemma separatorOffset_eq (path : String) : separatorOffset path = .ok (suffixOffset? path) := by
  rw [separatorOffset, suffixOffset?_eq, splitSuffix, lastOffset?_eq]
  cases hcut : splitLast '/' path.toList with
  | none =>
    have hzero : cutAt path 0 = .ok ("", path) := cutAt_eq_ok_iff.2 ⟨by simp, rfl⟩
    simp only [Option.map_none, Option.getD_none, hzero, ok_bind, firstOffset?_eq]
    split <;> rfl
  | some cut =>
    obtain ⟨ns, name⟩ := cut
    simp only [Option.map_some, Option.getD_some, cutAt_segment hcut, ok_bind, firstOffset?_eq,
      String.toList_ofList]
    split
    · rfl
    -- What is found in the last segment counts from behind the slash.
    · rw [byteSize_append_slash, add_comm (byteSize ns + 1)]
      rfl

lemma suffixOffset?_cases (path : String) :
    (suffixOffset? path = none ∧ (splitSuffix path.toList).2 = [] ∧
      String.ofList (splitSuffix path.toList).1 = path) ∨
    ∃ offset c suffix, suffixOffset? path = some offset ∧
      (splitSuffix path.toList).2 = c :: suffix ∧
      cutAt path offset =
        .ok (String.ofList (splitSuffix path.toList).1, String.ofList (c :: suffix)) := by
  have happend := splitSuffix_append path.toList
  rw [suffixOffset?_eq]
  cases hsuffix : (splitSuffix path.toList).2 with
  | nil =>
    rw [hsuffix, List.append_nil] at happend
    exact .inl ⟨if_pos rfl, rfl, by rw [happend, String.ofList_toList]⟩
  | cons c suffix =>
    refine .inr ⟨_, c, suffix, if_neg (List.cons_ne_nil _ _), rfl, ?_⟩
    rw [← hsuffix, ← cutAt_append, happend, String.ofList_toList]

lemma cutAtSeparator_eq (path : String) : cutAtSeparator path =
    .ok (String.ofList (splitSuffix path.toList).1, String.ofList (splitSuffix path.toList).2) := by
  rw [cutAtSeparator, separatorOffset_eq, ok_bind]
  obtain ⟨hnone, hsuffix, hbase⟩ | ⟨offset, c, suffix, hsome, hsuffix, hcut⟩ :=
    suffixOffset?_cases path
  · rw [hnone, hsuffix, hbase]
    rfl
  · rw [hsome, hsuffix]
    exact hcut

end MemberPath

namespace Name

lemma splitAtOffset_eq (path : String) : splitAtOffset path = .ok (split? path) := by
  rw [splitAtOffset, split?, lastOffset?_eq]
  cases hcut : splitLast '/' path.toList with
  | none => rfl
  | some cut =>
    obtain ⟨ns, name⟩ := cut
    have hpath : path.toList = ns ++ '/' :: name := (eq_append_of_splitLast hcut).1
    have hsize : path.utf8ByteSize = byteSize ns + byteSize name + 1 := by
      rw [← byteSize_toList, hpath, byteSize_append_slash, add_right_comm]
    have hslash : cutAt path (byteSize ns) =
        .ok (String.ofList ns, String.ofList ('/' :: name)) := by
      rw [← cutAt_append, ← hpath, String.ofList_toList]
    simp only [Option.map_some, hsize, oneBelow, ok_bind, hslash, cutAt_segment hcut]
    -- The slash is the last byte just if no name follows it.
    cases name with
    | nil => simp [pure, Except.pure]
    | cons c name =>
      have hne : byteSize (c :: name) ≠ 0 := fun hzero =>
        List.cons_ne_nil c name (byteSize_eq_zero_iff.1 hzero)
      rw [if_neg (by omega)]
      rfl

end Name

lemma Table.resolveAtOffset_eq {α : Type} [Declared α] (t : Table α) (path : String) :
    t.resolveAtOffset path = .ok (t.resolve path) := by
  rw [resolveAtOffset, splitAtOffset_eq, ← ofParts_split?]
  rfl

namespace Database

lemma resolveParameter_eq_bind (db : Database) (path : String) : db.resolveParameter path =
    (memberPathOf path).bind fun member =>
      refer path member (db.resolve .parameter (String.ofList (splitSuffix path.toList).1)) := by
  rw [resolveParameter]
  cases memberPathOf path with
  | error e => rfl
  | ok member =>
    simp only [Except.bind]
    split <;> simp only [refer, *]

lemma resolveParameterAtOffset_eq (db : Database) (path : String) :
    db.resolveParameterAtOffset path = .ok (db.resolveParameter path) := by
  rw [resolveParameterAtOffset, separatorOffset_eq, ok_bind, resolveParameter_eq_bind, memberPathOf]
  obtain ⟨hnone, hsuffix, hbase⟩ | ⟨offset, c, suffix, hsome, hsuffix, hcut⟩ :=
    suffixOffset?_cases path
  · rw [hnone, hsuffix, hbase]
    simp only [Table.resolveAtOffset_eq, ok_bind]
    rfl
  · rw [hsome, hsuffix]
    simp only [hcut, ok_bind, Table.resolveAtOffset_eq]
    cases MemberPath.parse (String.ofList (c :: suffix)) with
    | error cause => rfl
    | ok member =>
      simp only [Except.bind]
      rfl

end Database

/-- The path is a namespace and a name, with text behind it that begins as a member path does. -/
structure Name.IsMadeOf (path ns name suffix : String) : Prop where
  path_eq : path = ns ++ "/" ++ name ++ suffix
  ne_empty : name ≠ ""
  noSlash : '/' ∉ name.toList
  plain : IsPlain name
  begins : ∀ c ∈ suffix.toList.head?, startsElement c
  noSlashBehind : '/' ∉ suffix.toList

namespace MemberPath

lemma splitSuffix_snd (s : List Char) :
    (∀ c ∈ (splitSuffix s).2.head?, startsElement c) ∧ '/' ∉ (splitSuffix s).2 := by
  have hsegment : ∀ {t : List Char}, '/' ∉ t →
      (∀ c ∈ (t.dropWhile (!startsElement ·)).head?, startsElement c) ∧
        '/' ∉ t.dropWhile (!startsElement ·) := by
    intro t ht
    refine ⟨fun c hc => ?_, fun hmem => ht ((List.dropWhile_sublist _).subset hmem)⟩
    have hhead := List.head?_dropWhile_not (!startsElement ·) t
    rw [hc] at hhead
    simpa using hhead
  rw [splitSuffix]
  cases hcut : splitLast '/' s with
  | none => exact hsegment (splitLast_eq_none_iff.1 hcut)
  | some cut => exact hsegment (eq_append_of_splitLast hcut).2

end MemberPath

namespace Name

variable {path ns name suffix : String}

lemma SplitsInto.lastSegment_eq (h : SplitsInto path ns name) : lastSegment path = name := by
  rw [h.path_eq, lastSegment_append (isValid_iff.2 ⟨h.ne_empty, h.noSlash⟩)]

lemma IsMadeOf.splitsInto (h : IsMadeOf path ns name suffix) :
    SplitsInto (ns ++ "/" ++ name) ns name := ⟨rfl, h.ne_empty, h.noSlash⟩

lemma IsMadeOf.splitSuffix_eq (h : IsMadeOf path ns name suffix) :
    splitSuffix path.toList = ((ns ++ "/" ++ name).toList, suffix.toList) := by
  rw [h.path_eq, String.toList_append]
  exact splitSuffix_append_of_plain (h.splitsInto.lastSegment_eq.symm ▸ h.plain) h.begins
    h.noSlashBehind

lemma exists_cutAtSeparator_iff :
    (∃ base, cutAtSeparator path = .ok (base, suffix) ∧
      splitAtOffset base = .ok (some (ns, name))) ↔ IsMadeOf path ns name suffix := by
  simp only [cutAtSeparator_eq, splitAtOffset_eq, Except.ok.injEq, Prod.mk.injEq]
  constructor
  · rintro ⟨_, ⟨rfl, rfl⟩, hsplit⟩
    have hparts := split?_eq_some_iff.1 hsplit
    obtain ⟨hbegins, hslash⟩ := splitSuffix_snd path.toList
    have hplain := isPlain_splitSuffix path.toList
    rw [hparts.lastSegment_eq] at hplain
    refine ⟨?_, hparts.ne_empty, hparts.noSlash, hplain, by simpa using hbegins,
      by simpa using hslash⟩
    rw [← hparts.path_eq, ← String.ofList_append, splitSuffix_append, String.ofList_toList]
  · intro h
    refine ⟨ns ++ "/" ++ name, ?_, split?_eq_some_iff.2 h.splitsInto⟩
    simp only [h.splitSuffix_eq, String.ofList_toList, and_self]

lemma IsMadeOf.unique {ns' name' suffix' : String} (h : IsMadeOf path ns name suffix)
    (h' : IsMadeOf path ns' name' suffix') : ns = ns' ∧ name = name' ∧ suffix = suffix' := by
  obtain ⟨base, hcut, hsplit⟩ := exists_cutAtSeparator_iff.2 h
  obtain ⟨base', hcut', hsplit'⟩ := exists_cutAtSeparator_iff.2 h'
  rw [hcut, Except.ok.injEq, Prod.mk.injEq] at hcut'
  obtain ⟨rfl, rfl⟩ := hcut'
  rw [hsplit, Except.ok.injEq, Option.some.injEq, Prod.mk.injEq] at hsplit'
  exact ⟨hsplit'.1, hsplit'.2, rfl⟩

/-- Whatever the path is, all cuts at offsets in it are made between characters, and lead to the same
as cutting it by characters does. Cut first before its member path and then at the last slash that is
left, it gives the parts that it is made of, if there are any, and it is made of no others. -/
theorem parameter_paths_cut_exactly (path : String) :
    separatorOffset path = .ok (suffixOffset? path) ∧
    cutAtSeparator path = .ok (String.ofList (splitSuffix path.toList).1,
      String.ofList (splitSuffix path.toList).2) ∧
    splitAtOffset path = .ok (split? path) ∧
    (∀ db : Database, db.resolveParameterAtOffset path = .ok (db.resolveParameter path)) ∧
    (∀ ns name suffix, (∃ base, cutAtSeparator path = .ok (base, suffix) ∧
      splitAtOffset base = .ok (some (ns, name))) ↔ IsMadeOf path ns name suffix) ∧
    {parts : String × String × String |
      IsMadeOf path parts.1 parts.2.1 parts.2.2}.Subsingleton := by
  refine ⟨separatorOffset_eq path, cutAtSeparator_eq path, splitAtOffset_eq path,
    fun db => db.resolveParameterAtOffset_eq path,
    fun ns name suffix => exists_cutAtSeparator_iff, ?_⟩
  rintro ⟨ns, name, suffix⟩ h ⟨ns', name', suffix'⟩ h'
  obtain ⟨rfl, rfl, rfl⟩ := h.unique h'
  rfl

/-- The dot in the namespace and the letters of two bytes are no obstacle. -/
theorem parameter_paths_cut_exactly_umlauts :
    separatorOffset "µ.v2/größe[3].x" = .ok (some 13) ∧
    ∃ base, cutAtSeparator "µ.v2/größe[3].x" = .ok (base, "[3].x") ∧
      splitAtOffset base = .ok (some ("µ.v2", "größe")) := by
  obtain ⟨hoffset, -, -, -, hparts, -⟩ := parameter_paths_cut_exactly "µ.v2/größe[3].x"
  have hmade : IsMadeOf "µ.v2/größe[3].x" "µ.v2" "größe" "[3].x" :=
    ⟨by decide, by decide, by decide, by decide, by simp [startsElement], by decide⟩
  exact ⟨hoffset.trans (by decide +kernel), (hparts _ _ _).2 hmade⟩

end Name

end MissionCatalog
