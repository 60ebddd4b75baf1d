import MissionCatalog.Database.Build
import MissionCatalog.Proofs.Except
import MissionCatalog.Proofs.MemberPath.Places
import MissionCatalog.View

/-!
# A search through one type

A search shows the members that it finds in the order of their places, each place once. It can be
made with a single path, which the walk through the type changes and restores.
-/
namespace MissionCatalog
open MemberPath

/-- The path with the first subscripts of its last element only. -/
def truncateLast (count : ℕ) : List PathElement → List PathElement
  | [] => []
  | [e] => [{ e with index := e.index.take count }]
  | e :: es => e :: truncateLast count es

lemma truncateLast_append (count : ℕ) (elements : List PathElement) (e : PathElement) :
    truncateLast count (elements ++ [e]) =
      elements ++ [{ e with index := e.index.take count }] := by
  induction elements with
  | nil => rfl
  | cons f elements ih =>
    cases elements with
    | nil => rfl
    | cons g es => exact congrArg (f :: ·) ih

structure MemberWalk where
  path : List PathElement
  found : List MemberPath

namespace DataType

mutual

/-- A walk through the type that changes its one path on the way down, and takes each change back on
the way up: members by leaving out the last element, and arrays by leaving out the subscripts that
were added to it. -/
def walk (m : Matcher) : DataType → MemberWalk → MemberWalk
  | .aggregate members, w => walkMembers m members w
  | .array dimensions element, w =>
    let subscripts := List.replicate dimensions.toNat Subscript.any
    match w.path.getLast? with
    | some last =>
      let w := element.walk m { w with path := subscriptLast subscripts w.path }
      { w with path := truncateLast last.index.length w.path }
    | none =>
      let w := element.walk m { w with path := [⟨none, subscripts⟩] }
      { w with path := w.path.dropLast }
  | _, w => w

def walkMembers (m : Matcher) : List Member → MemberWalk → MemberWalk
  | [], w => w
  | ⟨name, _, type⟩ :: rest, w =>
    let path := w.path ++ [⟨some name, []⟩]
    let found := if m.inMember name ⟨path⟩ then w.found ++ [⟨path⟩] else w.found
    let w := type.walk m ⟨path, found⟩
    walkMembers m rest { w with path := w.path.dropLast }

end

mutual

lemma walk_eq (m : Matcher) (t : DataType) (w : MemberWalk) :
    t.walk m w = ⟨w.path, w.found ++ m.select (t.namedMembers w.path)⟩ := by
  cases t with
  | aggregate members => exact walkMembers_eq m members w
  | array dimensions element =>
    obtain ⟨path, found⟩ := w
    rw [walk, namedMembers]
    rcases path.eq_nil_or_concat with rfl | ⟨path, last, rfl⟩
    · simp only [List.getLast?_nil, walk_eq]
      rfl
    · -- The subscripts of the last element were there before, so they stay when it is cut.
      simp [walk_eq, subscriptLast_append, truncateLast_append]
  | _ => simp [walk, namedMembers, Matcher.select]

lemma walkMembers_eq (m : Matcher) (members : List Member) (w : MemberWalk) :
    walkMembers m members w =
      ⟨w.path, w.found ++ m.select (namedMembersOfList w.path members)⟩ := by
  match members with
  | [] => simp [walkMembers, namedMembersOfList, Matcher.select]
  | ⟨name, _, type⟩ :: rest =>
    rw [walkMembers, walk_eq, walkMembers_eq, namedMembersOfList]
    by_cases hfound : m.inMember name ⟨w.path ++ [⟨some name, []⟩]⟩ <;>
      simp [hfound, Matcher.select]

end

end DataType

namespace Matcher
open Text

/-- Some term occurs in the lower case of the member's own name, and every term in that of the path
to it. -/
def FindsAt (m : Matcher) (p : MemberPlace) : Prop :=
  (∃ term ∈ m.terms, term <:+: lower p.name.toList) ∧
    ∀ term ∈ m.terms, term <:+: lower p.path.text.toList

lemma inMember_iff {m : Matcher} {p : MemberPlace} : m.inMember p.name p.path ↔ m.FindsAt p := by
  simp [inMember, someInText, inText, FindsAt, occurs_iff]

end Matcher

namespace View

lemma foundMembers_of_terms_nil (v : View) {m : Matcher} (h : m.terms = []) (p : Parameter) :
    v.foundMembers m p = [] := by
  have hnone : ∀ t, m.membersOf t = [] := by simp [Matcher.membersOf, Matcher.isEmpty, h]
  rw [foundMembers]
  split <;> simp [hnone]

/-- A search for the members of a parameter shows, in the order of their places and each once, the
paths of just those named members of its type that the matcher finds, as does a walk with one path
that it leaves as it was. Without terms or without a type it shows nothing. The text of an item is the
parameter's qualified name with the path behind it. -/
theorem members_in_preorder (v : View) (m : Matcher) (p : Parameter) :
    (m.terms = [] ∨ v.db.typeOf? p = none → v.foundMembers m p = []) ∧
    ∀ t, v.db.typeOf? p = some t → ∃ places : List MemberPlace,
      places.Pairwise (fun a b => a.numbers < b.numbers) ∧
      (∀ place, place ∈ places ↔ t.details.dataType.HasMember place ∧ m.FindsAt place) ∧
      v.foundMembers m p = places.map (fun place => ⟨p, some place.path⟩) ∧
      (v.foundMembers m p).map ParameterMatch.text =
        places.map (fun place => p.qualifiedName ++ place.path.text) ∧
      t.details.dataType.walk m ⟨[], []⟩ = ⟨[], places.map MemberPlace.path⟩ := by
  refine ⟨?_, fun t ht => ?_⟩
  · rintro (hterms | htype)
    · exact v.foundMembers_of_terms_nil hterms p
    · rw [foundMembers, htype]
  · have hfound : v.foundMembers m p =
        (m.placesIn t.details.dataType).map fun place => ⟨p, some place.path⟩ := by
      rw [foundMembers, ht]
      simp only [Matcher.membersOf_eq, List.map_map]
      rfl
    refine ⟨_, m.increasing_placesIn _, fun place => ?_, hfound, ?_, ?_⟩
    · rw [Matcher.mem_placesIn, Matcher.inMember_iff]
    · rw [hfound, List.map_map]
      rfl
    · rw [DataType.walk_eq, ← Matcher.membersOf_eq_select, Matcher.membersOf_eq]
      rfl

def samplesCatalog : CatalogDefinition where
  name := "samples"
  version := none
  systems := [{
    head := ⟨"S", none, none, []⟩
    version := none
    parameterTypes := [⟨⟨"T", none, none, []⟩, ⟨none, .aggregate [
      ⟨"samples", none, .array 2 (.aggregate [
        ⟨"value", none, .array 1 (.aggregate [⟨"value", none, .boolean⟩, ⟨"at", none, .time⟩])⟩])⟩,
      ⟨"value", none, .boolean⟩]⟩⟩]
    parameters := [⟨⟨"P", none, none, []⟩, ⟨some "T", none⟩⟩]
    containers := []
    commands := []
    algorithms := []
    systems := [] }]

/-- The member behind the arrays has the path that it has without them. -/
theorem members_in_preorder_samples : ∃ db, Database.build samplesCatalog = .ok db ∧
    ∀ viewer, ∃ p t, ∃ places : List MemberPlace,
      (db.table .parameter).get? "/S/P" = some p ∧ db.typeOf? p = some t ∧
      places.Pairwise (fun a b => a.numbers < b.numbers) ∧
      t.details.dataType.walk (.ofQuery "value") ⟨[], []⟩ =
        ⟨[], places.map MemberPlace.path⟩ ∧
      places.map (fun place => p.qualifiedName ++ place.path.text) =
        ["/S/P.samples[][].value", "/S/P.samples[][].value[].value", "/S/P.value"] ∧
      View.foundMembers ⟨db, viewer, 100⟩ (.ofQuery " ") p = [] := by
  have hany : (Database.build samplesCatalog).toOption.any fun db =>
      ((db.table .parameter).get? "/S/P").any fun p => (db.typeOf? p).isSome ∧
        (View.foundMembers ⟨db, ⟨"ops", true, fun _ _ => true⟩, 100⟩ (.ofQuery "value") p).map
            ParameterMatch.text =
          ["/S/P.samples[][].value", "/S/P.samples[][].value[].value", "/S/P.value"] := by
    decide +kernel
  simp only [Option.any_eq_true, toOption_eq_some_iff, decide_eq_true_eq,
    Option.isSome_iff_exists] at hany
  obtain ⟨db, hb, p, hp, ⟨t, ht⟩, htexts⟩ := hany
  refine ⟨db, hb, fun viewer => ?_⟩
  obtain ⟨-, hfound⟩ := members_in_preorder ⟨db, viewer, 100⟩ (.ofQuery "value") p
  obtain ⟨hnothing, -⟩ := members_in_preorder ⟨db, viewer, 100⟩ (.ofQuery " ") p
  obtain ⟨places, hincreasing, -, -, hshown, hwalk⟩ := hfound t ht
  exact ⟨p, t, places, hp, ht, hincreasing, hwalk, hshown.symm.trans htexts,
    hnothing (.inl (by decide +kernel))⟩

end View

end MissionCatalog
