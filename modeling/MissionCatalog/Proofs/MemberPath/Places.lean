import MissionCatalog.Proofs.MemberPath.Walk
import MissionCatalog.Proofs.Search

/-!
# Members in the order of their places

A type is a tree. The children of an aggregate are the types of its members, and an array has the
type of its items as its only child. The numbers of the children on the way to a member say where it
stands, and lists of numbers in lexicographic order are the places of the tree in preorder.
-/
namespace MissionCatalog
open MemberPath

/-- The open subscripts of the arrays that the steps pass before the first member. -/
def openSubscripts : List TypeStep → List Subscript
  | .items dimensions :: steps => List.replicate dimensions.toNat .any ++ openSubscripts steps
  | _ => []

/-- An element for each member that the steps pass, with the subscripts of the arrays behind it. -/
def namedElements : List TypeStep → List PathElement
  | [] => []
  | .items _ :: steps => namedElements steps
  | .member name :: steps => ⟨some name, openSubscripts steps⟩ :: namedElements steps

/-- Arrays that are passed before any member make an element without a name. -/
def elementsOf : List TypeStep → List PathElement
  | .items dimensions :: steps =>
    ⟨none, openSubscripts (.items dimensions :: steps)⟩ :: namedElements steps
  | steps => namedElements steps

lemma foldl_extend_append (steps : List TypeStep) (elements : List PathElement) (e : PathElement) :
    steps.foldl TypeStep.extend (elements ++ [e]) =
      elements ++ { e with index := e.index ++ openSubscripts steps } :: namedElements steps := by
  induction steps generalizing elements e with
  | nil => simp [openSubscripts, namedElements]
  | cons s steps ih =>
    rw [List.foldl_cons]
    cases s with
    | member name =>
      rw [TypeStep.extend, ih]
      simp [openSubscripts, namedElements]
    | items dimensions =>
      rw [TypeStep.extend, subscriptLast_append, ih]
      simp [openSubscripts, namedElements]

lemma foldl_extend_nil (steps : List TypeStep) :
    steps.foldl TypeStep.extend [] = elementsOf steps := by
  cases steps with
  | nil => rfl
  | cons s steps =>
    cases s with
    | member name => exact foldl_extend_append steps [] ⟨some name, []⟩
    | items dimensions =>
      exact foldl_extend_append steps [] ⟨none, List.replicate dimensions.toNat .any⟩

/-- A named member of a type by its place: the numbers of the children that lead down to it, the
steps that these take, and its own name. -/
structure MemberPlace where
  numbers : List ℕ
  steps : List TypeStep
  name : String

namespace MemberPlace

def under (i : ℕ) (s : TypeStep) (p : MemberPlace) : MemberPlace :=
  ⟨i :: p.numbers, s :: p.steps, p.name⟩

def path (p : MemberPlace) : MemberPath := ⟨elementsOf p.steps⟩

end MemberPlace

namespace DataType

/-- A named member stands in the place. -/
inductive HasMember : DataType → MemberPlace → Prop
  | here {members : List Member} {i : ℕ} {m : Member} (mem : members[i]? = some m) :
      HasMember (.aggregate members) ⟨[i], [.member m.name], m.name⟩
  | inside {members : List Member} {i : ℕ} {m : Member} {p : MemberPlace}
      (mem : members[i]? = some m) (rest : HasMember m.type p) :
      HasMember (.aggregate members) (p.under i (.member m.name))
  | items {dimensions : UInt64} {element : DataType} {p : MemberPlace}
      (rest : HasMember element p) :
      HasMember (.array dimensions element) (p.under 0 (.items dimensions))

mutual

/-- The places of all named members, each before the places inside it. -/
def places : DataType → List MemberPlace
  | .aggregate members => placesFrom 0 members
  | .array dimensions element => element.places.map (.under 0 (.items dimensions))
  | _ => []

/-- The places in members that are counted from a number on. -/
def placesFrom (i : ℕ) : List Member → List MemberPlace
  | [] => []
  | ⟨name, _, type⟩ :: rest =>
    ⟨[i], [.member name], name⟩ ::
      (type.places.map (.under i (.member name)) ++ placesFrom (i + 1) rest)

end

mutual

lemma mem_places_iff {t : DataType} {p : MemberPlace} : p ∈ t.places ↔ t.HasMember p := by
  cases t with
  | aggregate members =>
    rw [places, mem_placesFrom_iff]
    constructor
    · rintro ⟨j, m, hm, rfl | ⟨inner, hinner, rfl⟩⟩
      · rw [Nat.zero_add]
        exact .here hm
      · rw [Nat.zero_add]
        exact .inside hm hinner
    · intro h
      cases h with
      | @here _ j m mem => exact ⟨j, m, mem, .inl (by rw [Nat.zero_add])⟩
      | @inside _ j m inner mem rest => exact ⟨j, m, mem, .inr ⟨inner, rest, by rw [Nat.zero_add]⟩⟩
  | array dimensions element =>
    rw [places, List.mem_map]
    constructor
    · rintro ⟨inner, hinner, rfl⟩
      exact .items (mem_places_iff.1 hinner)
    · intro h
      cases h with
      | items rest => exact ⟨_, mem_places_iff.2 rest, rfl⟩
  | _ =>
    refine iff_of_false (by simp [places]) ?_
    intro h
    cases h

lemma mem_placesFrom_iff {i : ℕ} {members : List Member} {p : MemberPlace} :
    p ∈ placesFrom i members ↔ ∃ j m, members[j]? = some m ∧
      (p = ⟨[i + j], [.member m.name], m.name⟩ ∨
        ∃ inner, m.type.HasMember inner ∧ p = inner.under (i + j) (.member m.name)) := by
  match members with
  | [] => simp [placesFrom]
  | ⟨name, _, type⟩ :: rest =>
    rw [placesFrom, List.mem_cons, List.mem_append, List.mem_map, mem_placesFrom_iff]
    simp only [mem_places_iff]
    constructor
    · rintro (rfl | ⟨inner, hinner, rfl⟩ | ⟨j, m, hm, hp⟩)
      · exact ⟨0, _, rfl, .inl rfl⟩
      · exact ⟨0, _, rfl, .inr ⟨inner, hinner, rfl⟩⟩
      · refine ⟨j + 1, m, by simpa using hm, ?_⟩
        rwa [Nat.add_right_comm, Nat.add_assoc] at hp
    · rintro ⟨_ | j, m, hm, hp⟩
      · obtain rfl : _ = m := by simpa using hm
        rcases hp with rfl | ⟨inner, hinner, rfl⟩
        · exact .inl rfl
        · exact .inr (.inl ⟨inner, hinner, rfl⟩)
      · refine .inr (.inr ⟨j, m, by simpa using hm, ?_⟩)
        rwa [Nat.add_right_comm, Nat.add_assoc]

end

lemma HasMember.numbers_ne_nil {t : DataType} {p : MemberPlace} (h : t.HasMember p) :
    p.numbers ≠ [] := by
  cases h <;> simp [MemberPlace.under]

lemma lt_of_mem_placesFrom {i : ℕ} {members : List Member} (numbers : List ℕ) {p : MemberPlace}
    (h : p ∈ placesFrom (i + 1) members) : i :: numbers < p.numbers := by
  obtain ⟨j, m, -, rfl | ⟨inner, -, rfl⟩⟩ := mem_placesFrom_iff.1 h <;>
    exact List.cons_lt_cons_iff.2 (.inl (by omega))

mutual

lemma increasing_places (t : DataType) : t.places.Pairwise fun p q => p.numbers < q.numbers := by
  cases t with
  | aggregate members => exact increasing_placesFrom 0 members
  | array dimensions element =>
    rw [places, List.pairwise_map]
    exact (increasing_places element).imp fun h => List.cons_lt_cons_self.2 h
  | _ => exact .nil

lemma increasing_placesFrom (i : ℕ) (members : List Member) :
    (placesFrom i members).Pairwise fun p q => p.numbers < q.numbers := by
  match members with
  | [] => exact .nil
  | ⟨name, _, type⟩ :: rest =>
    have hlater : ∀ numbers, ∀ q ∈ placesFrom (i + 1) rest, i :: numbers < q.numbers :=
      fun numbers q hq => lt_of_mem_placesFrom numbers hq
    rw [placesFrom, List.pairwise_cons, List.pairwise_append, List.pairwise_map]
    refine ⟨fun q hq => ?_, (increasing_places type).imp fun h => List.cons_lt_cons_self.2 h,
      increasing_placesFrom (i + 1) rest, fun p hp q hq => ?_⟩
    · rcases List.mem_append.1 hq with hq | hq
      · -- A place inside the member has more numbers behind that of the member.
        obtain ⟨inner, hinner, rfl⟩ := List.mem_map.1 hq
        obtain ⟨j, others, hnumbers⟩ :=
          List.exists_cons_of_ne_nil (mem_places_iff.1 hinner).numbers_ne_nil
        rw [MemberPlace.under, hnumbers]
        exact List.cons_lt_cons_self.2 (List.nil_lt_cons j others)
      · exact hlater [] q hq
    · obtain ⟨inner, -, rfl⟩ := List.mem_map.1 hp
      exact hlater inner.numbers q hq

end

mutual

lemma namedMembers_eq (t : DataType) (before : List PathElement) : t.namedMembers before =
    t.places.map fun p => (p.name, ⟨p.steps.foldl TypeStep.extend before⟩) := by
  cases t with
  | aggregate members => exact namedMembersOfList_eq 0 members before
  | array dimensions element =>
    rw [namedMembers, namedMembers_eq, places, List.map_map]
    rfl
  | _ => rfl

lemma namedMembersOfList_eq (i : ℕ) (members : List Member) (before : List PathElement) :
    namedMembersOfList before members =
      (placesFrom i members).map fun p => (p.name, ⟨p.steps.foldl TypeStep.extend before⟩) := by
  match members with
  | [] => rfl
  | ⟨name, _, type⟩ :: rest =>
    rw [namedMembersOfList, namedMembers_eq, namedMembersOfList_eq (i + 1), placesFrom,
      List.map_cons, List.map_append, List.map_map]
    rfl

end

end DataType

namespace Matcher

/-- The places of the members that the matcher finds in a type. -/
def placesIn (m : Matcher) (t : DataType) : List MemberPlace :=
  t.places.filter fun p => m.inMember p.name p.path

lemma membersOf_eq (m : Matcher) (t : DataType) :
    m.membersOf t = (m.placesIn t).map MemberPlace.path := by
  rw [membersOf_eq_select, select, DataType.namedMembers_eq]
  simp only [foldl_extend_nil]
  rw [List.filter_map, List.map_map]
  rfl

lemma mem_placesIn {m : Matcher} {t : DataType} {p : MemberPlace} :
    p ∈ m.placesIn t ↔ t.HasMember p ∧ m.inMember p.name p.path := by
  rw [placesIn, List.mem_filter, DataType.mem_places_iff]

lemma increasing_placesIn (m : Matcher) (t : DataType) :
    (m.placesIn t).Pairwise fun p q => p.numbers < q.numbers :=
  (DataType.increasing_places t).filter _

lemma nodup_placesIn (m : Matcher) (t : DataType) : (m.placesIn t).Nodup :=
  (m.increasing_placesIn t).imp fun hlt heq => hlt.ne (congrArg MemberPlace.numbers heq)

end Matcher

end MissionCatalog
