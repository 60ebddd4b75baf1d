import MissionCatalog.Proofs.MemberPath.Existence
import MissionCatalog.Proofs.MemberPath.Reading
import MissionCatalog.Proofs.Resolve.Namespaces

/-!
# How paths of parameters are read

What follows the first dot or bracket in the last segment of a path is read as the path of a member.
`Name.AsksFor` says so without cutting the path, and `Database.RefersTo` says what the path leads to.
Whether the member that it asks for exists is looked at later.
-/
namespace MissionCatalog
open Name MemberPath

/-- The text has no character with which a member path begins. -/
def IsPlain (s : String) : Prop := '.' ∉ s.toList ∧ '[' ∉ s.toList

instance : DecidablePred IsPlain := fun s =>
  inferInstanceAs (Decidable ('.' ∉ s.toList ∧ '[' ∉ s.toList))

lemma isPlain_iff {s : String} : IsPlain s ↔ ∀ c ∈ s.toList, ¬startsElement c := by
  simp only [IsPlain, startsElement, Bool.or_eq_true, beq_iff_eq, not_or, forall_and]
  constructor
  · rintro ⟨hdot, hbracket⟩
    exact ⟨fun c hc he => hdot (he ▸ hc), fun c hc he => hbracket (he ▸ hc)⟩
  · rintro ⟨hdot, hbracket⟩
    exact ⟨fun hc => hdot _ hc rfl, fun hc => hbracket _ hc rfl⟩

lemma dropWhile_eq_nil_iff_isPlain {s : String} :
    s.toList.dropWhile (!startsElement ·) = [] ↔ IsPlain s := by
  simp [isPlain_iff, List.dropWhile_eq_nil_iff]

lemma splitSuffix_snd_eq_nil_iff {path : String} :
    (splitSuffix path.toList).2 = [] ↔ IsPlain (lastSegment path) := by
  rw [splitSuffix, lastSegment]
  cases Text.splitLast '/' path.toList with
  | none => exact dropWhile_eq_nil_iff_isPlain
  | some cut => simpa using dropWhile_eq_nil_iff_isPlain (s := String.ofList cut.2)

lemma splitSuffix_fst_of_isPlain {path : String} (h : IsPlain (lastSegment path)) :
    String.ofList (splitSuffix path.toList).1 = path := by
  have happend := splitSuffix_append path.toList
  rw [splitSuffix_snd_eq_nil_iff.2 h, List.append_nil] at happend
  simp [happend]

lemma memberPathOf_eq_none_iff {path : String} :
    Database.memberPathOf path = .ok none ↔ IsPlain (lastSegment path) := by
  rw [← splitSuffix_snd_eq_nil_iff, Database.memberPathOf]
  cases hs : (splitSuffix path.toList).2 with
  | nil => simp
  | cons x xs =>
    dsimp only
    split <;> simp

namespace Name

/-- The path is that of an entity, with the text of a member path behind it if it asks for a member.
This text begins where the last segment ceases to be plain. -/
inductive AsksFor : String → String → Option MemberPath → Prop
  | whole {base : String} (plain : IsPlain (lastSegment base)) : AsksFor base base none
  | member {base suffix : String} {path : MemberPath} (plain : IsPlain (lastSegment base))
      (spelled : Spells suffix.toList path) : AsksFor (base ++ suffix) base (some path)

lemma lastSegment_eq_of_not_mem {name : String} (h : '/' ∉ name.toList) :
    lastSegment name = name := by
  rw [lastSegment, Text.splitLast_eq_none_iff.2 h]

lemma lastSegment_append_of_not_mem {ns segment : List Char} (h : '/' ∉ segment) :
    lastSegment (String.ofList (ns ++ '/' :: segment)) = String.ofList segment := by
  rw [lastSegment, String.toList_ofList, Text.splitLast_append h]

end Name

namespace MemberPath

lemma isPlain_takeWhile (s : List Char) :
    IsPlain (String.ofList (s.takeWhile (!startsElement ·))) := by
  rw [isPlain_iff, String.toList_ofList]
  intro c hc
  simpa using List.mem_takeWhile_imp hc

lemma isPlain_splitSuffix (s : List Char) :
    IsPlain (lastSegment (String.ofList (splitSuffix s).1)) := by
  have hslash : ∀ {t : List Char}, '/' ∉ t → '/' ∉ t.takeWhile (!startsElement ·) :=
    fun h hmem => h ((List.takeWhile_sublist _).subset hmem)
  rw [splitSuffix]
  cases hcut : Text.splitLast '/' s with
  | none =>
    have hs := hslash (Text.splitLast_eq_none_iff.1 hcut)
    rw [lastSegment_eq_of_not_mem (by simpa using hs)]
    exact isPlain_takeWhile s
  | some cut =>
    have hs := hslash (Text.eq_append_of_splitLast hcut).2
    rw [lastSegment_append_of_not_mem hs]
    exact isPlain_takeWhile cut.2

lemma splitSuffix_append_of_plain {base : String} {suffix : List Char}
    (hplain : IsPlain (lastSegment base)) (hstart : ∀ c ∈ suffix.head?, startsElement c)
    (hslash : '/' ∉ suffix) : splitSuffix (base.toList ++ suffix) = (base.toList, suffix) := by
  have hspan : suffix.takeWhile (!startsElement ·) = [] ∧
      suffix.dropWhile (!startsElement ·) = suffix := by
    cases suffix with
    | nil => exact ⟨rfl, rfl⟩
    | cons c cs => simp [hstart c rfl]
  have hcut : ∀ {name : List Char}, (∀ c ∈ name, ¬startsElement c) →
      (name ++ suffix).takeWhile (!startsElement ·) = name ∧
        (name ++ suffix).dropWhile (!startsElement ·) = suffix := by
    intro name hname
    have hname : ∀ c ∈ name, (!startsElement c) = true := by simpa using hname
    rw [List.takeWhile_append_of_pos hname, List.dropWhile_append_of_pos hname, hspan.1, hspan.2,
      List.append_nil]
    exact ⟨rfl, rfl⟩
  rw [isPlain_iff, lastSegment] at hplain
  rw [splitSuffix]
  cases hbase : Text.splitLast '/' base.toList with
  | none =>
    simp only [hbase] at hplain
    have hnone : Text.splitLast '/' (base.toList ++ suffix) = none := by
      rw [Text.splitLast_eq_none_iff, List.mem_append, not_or]
      exact ⟨Text.splitLast_eq_none_iff.1 hbase, hslash⟩
    simp only [hnone, hcut hplain]
  | some cut =>
    obtain ⟨ns, name⟩ := cut
    simp only [hbase, String.toList_ofList] at hplain
    obtain ⟨happend, hname⟩ := Text.eq_append_of_splitLast hbase
    have hsome : Text.splitLast '/' (base.toList ++ suffix) = some (ns, name ++ suffix) := by
      rw [happend, List.append_assoc, List.cons_append, Text.splitLast_append]
      rw [List.mem_append, not_or]
      exact ⟨hname, hslash⟩
    rw [hsome, happend]
    simp only [hcut hplain]

end MemberPath

namespace Database

lemma memberPathOf_eq_some_iff {path : String} {member : MemberPath} :
    memberPathOf path = .ok (some member) ↔ Spells (splitSuffix path.toList).2 member := by
  rw [memberPathOf]
  generalize (splitSuffix path.toList).2 = suffix
  cases suffix with
  | nil =>
    have hnil : ¬Spells [] member := fun h => by simpa using h.exists_cons
    simp [hnil]
  | cons c cs =>
    have hparse := @MemberPath.parse_eq_ok_iff (String.ofList (c :: cs)) member
    rw [String.toList_ofList] at hparse
    dsimp only
    rw [← hparse]
    generalize MemberPath.parse (String.ofList (c :: cs)) = parsed
    cases parsed <;> simp

lemma asksFor_iff {path base : String} {member : Option MemberPath} :
    AsksFor path base member ↔ memberPathOf path = .ok member ∧
      String.ofList (splitSuffix path.toList).1 = base := by
  constructor
  · intro h
    cases h with
    | whole plain =>
      exact ⟨memberPathOf_eq_none_iff.2 plain, splitSuffix_fst_of_isPlain plain⟩
    | @member _ suffix _ plain spelled =>
      obtain ⟨c, cs, hsuffix, hstarts⟩ := spelled.exists_cons
      have hcut : splitSuffix (base ++ suffix).toList = (base.toList, suffix.toList) := by
        rw [String.toList_append]
        exact splitSuffix_append_of_plain plain (by simpa [hsuffix] using hstarts)
          spelled.slash_not_mem
      rw [memberPathOf_eq_some_iff, hcut]
      exact ⟨spelled, String.ofList_toList⟩
  · intro h
    obtain ⟨hmember, rfl⟩ := h
    cases member with
    | none =>
      have hplain := memberPathOf_eq_none_iff.1 hmember
      rw [splitSuffix_fst_of_isPlain hplain]
      exact .whole hplain
    | some member =>
      have hspelled : Spells (String.ofList (splitSuffix path.toList).2).toList member := by
        rw [String.toList_ofList]
        exact memberPathOf_eq_some_iff.1 hmember
      have happend : String.ofList (splitSuffix path.toList).1 ++
          String.ofList (splitSuffix path.toList).2 = path := by
        rw [← String.ofList_append, splitSuffix_append, String.ofList_toList]
      have hasks := AsksFor.member (isPlain_splitSuffix path.toList) hspelled
      rwa [happend] at hasks

variable {db : Database} {path : String} {ref : ParameterRef}

/-- The path leads to the parameter, and asks for the member of it. The member path is written behind
the name in its one way, whatever the path says. -/
inductive RefersTo (db : Database) (path : String) : ParameterRef → Prop
  | intro {base : String} {member : Option MemberPath} {p : Parameter} {id : ObjectId}
      (asks : AsksFor path base member) (resolved : db.resolve .parameter base = .ok ⟨p, id⟩) :
      RefersTo db path
        ⟨p, { id with name := id.name ++ (member.map MemberPath.text).getD "" }, member⟩

lemma resolveParameter_eq_ok_iff : db.resolveParameter path = .ok ref ↔ db.RefersTo path ref := by
  constructor
  · intro h
    rw [resolveParameter] at h
    split at h
    · simp at h
    · next member hmember =>
      split at h
      · next p id hresolved =>
        obtain rfl := Except.ok.inj h
        exact .intro (asksFor_iff.2 ⟨hmember, rfl⟩) hresolved
      · simp at h
      · simp at h
  · intro h
    obtain ⟨asks, resolved⟩ := h
    obtain ⟨hmember, rfl⟩ := asksFor_iff.1 asks
    simp only [resolveParameter, hmember, resolved]

lemma RefersTo.unique {other : ParameterRef} (h : db.RefersTo path ref)
    (h' : db.RefersTo path other) : ref = other := by
  rw [← resolveParameter_eq_ok_iff] at h h'
  exact Except.ok.inj (h.symm.trans h')

lemma category_of_resolveParameter {error : QueryError}
    (h : db.resolveParameter path = .error error) : error.category = .notFound := by
  rw [resolveParameter] at h
  split at h
  · next e hmember =>
    obtain rfl := Except.error.inj h
    rw [memberPathOf] at hmember
    split at hmember
    · simp at hmember
    · split at hmember
      · simp at hmember
      · obtain rfl := Except.error.inj hmember
        rfl
  · split at h
    · simp at h
    · obtain rfl := Except.error.inj h
      rfl
    · next hresolved =>
      obtain rfl := Except.error.inj h
      exact Table.category_of_resolve hresolved

/-- A path leads to a parameter itself, and to no member of it, just if the path of its last segment
is plain and leads there as the path of an entity does. -/
lemma resolveParameter_whole_iff {p : Parameter} {id : ObjectId} :
    db.resolveParameter path = .ok ⟨p, id, none⟩ ↔
      db.resolve .parameter path = .ok ⟨p, id⟩ ∧ IsPlain (lastSegment path) := by
  rw [resolveParameter_eq_ok_iff]
  constructor
  · intro h
    generalize hwhole : ParameterRef.mk p id none = ref at h
    cases h with
    | @intro _ _ _ found asks resolved =>
      obtain ⟨rfl, hid, rfl⟩ := ParameterRef.mk.inj hwhole
      obtain rfl : id = found := by simpa using hid
      cases asks with
      | whole plain => exact ⟨resolved, plain⟩
  · intro h
    obtain ⟨resolved, plain⟩ := h
    simpa using RefersTo.intro (.whole plain) resolved

lemma resolveParameter_member {base : String} {p : Parameter} {id : ObjectId} {path : MemberPath}
    (resolved : db.resolve .parameter base = .ok ⟨p, id⟩) (plain : IsPlain (lastSegment base))
    (readable : path.IsReadable) : db.resolveParameter (base ++ path.text) =
      .ok ⟨p, { id with name := id.name ++ path.text }, some path⟩ := by
  have hspelled : Spells path.text.toList path := by
    rw [MemberPath.text, String.toList_ofList]
    exact readable.spells
  exact resolveParameter_eq_ok_iff.2 (.intro (.member plain hspelled) resolved)

lemma isReadable_of_resolveParameter (h : db.resolveParameter path = .ok ref) :
    ∀ r ∈ ref.path, r.IsReadable := by
  obtain ⟨asks, -⟩ := resolveParameter_eq_ok_iff.1 h
  intro r hr
  cases asks with
  | whole plain => simp at hr
  | member plain spelled =>
    obtain rfl := Option.some.inj hr
    exact spelled.isReadable

end Database

/-- The parameter itself is asked for, or a member whose path exists in the parameter's type. -/
def ParameterRef.Exists (r : ParameterRef) (db : Database) : Prop :=
  ∀ path ∈ r.path, ∃ t, db.HasType r.parameter t ∧
    ∃ u, t.details.dataType.Reaches path.elements u

lemma ParameterRef.verify_eq_ok_iff {r : ParameterRef} {db : Database} {c : CatalogDefinition}
    (h : db.Holds c) : r.verify db = .ok () ↔ r.Exists db := by
  unfold verify Exists
  cases r.path with
  | none => simp
  | some path => simp [Option.any_eq_true, h.typeOf?_eq_some_iff, MemberPath.fits_iff]

lemma ParameterRef.category_of_verify {r : ParameterRef} {db : Database} {error : QueryError}
    (h : r.verify db = .error error) : error.category = .notFound := by
  unfold verify at h
  split at h
  · simp at h
  · split at h
    · simp at h
    · obtain rfl := Except.error.inj h
      rfl

end MissionCatalog
