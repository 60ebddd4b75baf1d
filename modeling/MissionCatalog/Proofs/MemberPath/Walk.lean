import Mathlib
import MissionCatalog.Search

/-!
# Members by their place in a type

A place inside a type is given by the steps that lead there: into a member of an aggregate, or into
the items of an array. The members that a search looks at are those at all places, each under the
path that its steps spell.
-/
namespace MissionCatalog

/-- A step from a type into a part of it. -/
inductive TypeStep where
  | member (name : String)
  | items (dimensions : UInt64)
deriving DecidableEq, Repr

/-- The steps lead from the first type to the second. -/
inductive DataType.Leads : DataType → List TypeStep → DataType → Prop
  | here {t : DataType} : Leads t [] t
  | member {members : List Member} {m : Member} {steps : List TypeStep} {t : DataType}
      (mem : m ∈ members) (rest : Leads m.type steps t) :
      Leads (.aggregate members) (.member m.name :: steps) t
  | items {dimensions : UInt64} {element t : DataType} {steps : List TypeStep}
      (rest : Leads element steps t) :
      Leads (.array dimensions element) (.items dimensions :: steps) t

def TypeStep.name? : TypeStep → Option String
  | member name => some name
  | items _ => none

/-- The elements of a path, with one step more. The items of an array are reached by subscripts of
the element before them. -/
def TypeStep.extend (elements : List PathElement) : TypeStep → List PathElement
  | member name => elements ++ [⟨some name, []⟩]
  | items dimensions => subscriptLast (List.replicate dimensions.toNat .any) elements

namespace MemberPath

/-- The path that the steps spell. -/
def ofSteps (steps : List TypeStep) : MemberPath := ⟨steps.foldl TypeStep.extend []⟩

end MemberPath

namespace DataType

/-- The path that begins with the given elements leads to a member of the name, by steps from the
type the last of which is into this member. -/
def IsNamedMember (t : DataType) (before : List PathElement) (name : String) (path : MemberPath) :
    Prop :=
  ∃ steps u, t.Leads steps u ∧ steps.getLast? = some (.member name) ∧
    path = ⟨steps.foldl TypeStep.extend before⟩

variable {before : List PathElement} {name : String} {path : MemberPath}

lemma isNamedMember_aggregate_iff {members : List Member} :
    (aggregate members).IsNamedMember before name path ↔ ∃ m ∈ members,
      (m.name = name ∧ path = ⟨before ++ [⟨some m.name, []⟩]⟩) ∨
        m.type.IsNamedMember (before ++ [⟨some m.name, []⟩]) name path := by
  constructor
  · rintro ⟨_, u, _ | ⟨hm, hrest⟩, hlast, rfl⟩
    · simp at hlast
    · next m steps =>
      refine ⟨m, hm, ?_⟩
      cases steps with
      | nil => exact .inl ⟨by simpa using hlast, rfl⟩
      | cons s steps => exact .inr ⟨_, u, hrest, by rwa [List.getLast?_cons_cons] at hlast, rfl⟩
  · rintro ⟨m, hm, ⟨rfl, rfl⟩ | ⟨steps, u, hrest, hlast, rfl⟩⟩
    · exact ⟨_, _, .member hm .here, rfl, rfl⟩
    · exact ⟨_, u, .member hm hrest, by simp [List.getLast?_cons, hlast], rfl⟩

lemma isNamedMember_array_iff {dimensions : UInt64} {element : DataType} :
    (array dimensions element).IsNamedMember before name path ↔
      element.IsNamedMember (subscriptLast (List.replicate dimensions.toNat .any) before)
        name path := by
  constructor
  · rintro ⟨_, u, _ | ⟨hm, hrest⟩ | hrest, hlast, rfl⟩
    · simp at hlast
    · next steps =>
      cases steps with
      | nil => simp at hlast
      | cons s steps => exact ⟨_, u, hrest, by rwa [List.getLast?_cons_cons] at hlast, rfl⟩
  · rintro ⟨steps, u, hrest, hlast, rfl⟩
    exact ⟨_, u, .items hrest, by simp [List.getLast?_cons, hlast], rfl⟩

mutual

lemma mem_namedMembers_iff {t : DataType} {before : List PathElement} {name : String}
    {path : MemberPath} : (name, path) ∈ t.namedMembers before ↔
      t.IsNamedMember before name path := by
  cases t with
  | aggregate members =>
    rw [namedMembers, isNamedMember_aggregate_iff, mem_namedMembersOfList_iff]
  | array dimensions element =>
    rw [namedMembers, isNamedMember_array_iff, mem_namedMembers_iff]
  | _ =>
    refine iff_of_false (by simp [namedMembers]) ?_
    rintro ⟨_, _, ⟨⟩, hlast, -⟩
    simp at hlast

lemma mem_namedMembersOfList_iff {members : List Member} {before : List PathElement}
    {name : String} {path : MemberPath} : (name, path) ∈ namedMembersOfList before members ↔
      ∃ m ∈ members, (m.name = name ∧ path = ⟨before ++ [⟨some m.name, []⟩]⟩) ∨
        m.type.IsNamedMember (before ++ [⟨some m.name, []⟩]) name path := by
  match members with
  | [] => simp [namedMembersOfList]
  | ⟨n, _, type⟩ :: rest =>
    rw [namedMembersOfList, List.mem_cons, List.mem_append, mem_namedMembers_iff,
      mem_namedMembersOfList_iff, List.exists_mem_cons_iff, Prod.mk.injEq, or_assoc,
      eq_comm (a := name)]

end

end DataType

namespace MemberPath
open TypeStep

lemma extend_ne_nil (elements : List PathElement) (s : TypeStep) : s.extend elements ≠ [] := by
  cases s with
  | member name => simp [extend]
  | items dimensions =>
    match elements with
    | [] => simp [extend, subscriptLast]
    | [e] => simp [extend, subscriptLast]
    | e :: f :: es => simp [extend, subscriptLast]

/-- Steps go on from the last element; the elements before it stay. -/
lemma foldl_extend_cons {e : PathElement} {elements : List PathElement} (h : elements ≠ [])
    (steps : List TypeStep) :
    steps.foldl extend (e :: elements) = e :: steps.foldl extend elements := by
  induction steps generalizing elements with
  | nil => rfl
  | cons s steps ih =>
    have hs : s.extend (e :: elements) = e :: s.extend elements := by
      cases s with
      | member name => rfl
      | items dimensions =>
        cases elements with
        | nil => exact absurd rfl h
        | cons f es => rfl
    rw [List.foldl_cons, hs, ih (extend_ne_nil elements s), List.foldl_cons]

/-- What the steps make of an element does not depend on its name. -/
lemma exists_foldl_extend (index : List Subscript) (steps : List TypeStep) :
    ∃ index' elements, ∀ name, steps.foldl extend [⟨name, index⟩] = ⟨name, index'⟩ :: elements := by
  induction steps generalizing index with
  | nil => exact ⟨index, [], fun _ => rfl⟩
  | cons s steps ih =>
    cases s with
    | member name => exact ⟨index, _, fun _ => foldl_extend_cons (List.cons_ne_nil _ _) steps⟩
    | items dimensions => exact ih (index ++ List.replicate dimensions.toNat .any)

lemma map_name_subscriptLast (subscripts : List Subscript) : ∀ {elements : List PathElement},
    elements ≠ [] → (subscriptLast subscripts elements).map (·.name) = elements.map (·.name)
  | [], h => absurd rfl h
  | [_], _ => rfl
  | e :: f :: es, _ => by
    have ih := map_name_subscriptLast subscripts (List.cons_ne_nil f es)
    simp only [subscriptLast, List.map_cons] at ih ⊢
    rw [ih]

lemma map_name_foldl_extend {elements : List PathElement} (h : elements ≠ [])
    (steps : List TypeStep) : (steps.foldl extend elements).map (·.name) =
      elements.map (·.name) ++ (steps.filterMap name?).map some := by
  induction steps generalizing elements with
  | nil => simp
  | cons s steps ih =>
    rw [List.foldl_cons, ih (extend_ne_nil elements s)]
    cases s with
    | member name => simp [extend, name?]
    | items dimensions =>
      rw [extend, map_name_subscriptLast _ h]
      rfl

/-- The name that the first element of a path lacks if its first step is into an array. -/
def leadingName : List TypeStep → List (Option String)
  | .items _ :: _ => [none]
  | _ => []

lemma map_name_ofSteps (steps : List TypeStep) : (ofSteps steps).elements.map (·.name) =
    leadingName steps ++ (steps.filterMap name?).map some := by
  match steps with
  | [] => rfl
  | .member name :: steps =>
    exact map_name_foldl_extend (List.cons_ne_nil (⟨some name, []⟩ : PathElement) []) steps
  | .items dimensions :: steps =>
    have h := map_name_foldl_extend
      (List.cons_ne_nil ⟨none, List.replicate dimensions.toNat .any⟩ []) steps
    exact h

lemma subscriptLast_append (subscripts : List Subscript) (elements : List PathElement)
    (e : PathElement) : subscriptLast subscripts (elements ++ [e]) =
      elements ++ [{ e with index := e.index ++ subscripts }] := by
  induction elements with
  | nil => rfl
  | cons f elements ih =>
    cases elements with
    | nil => rfl
    | cons g es => exact congrArg (f :: ·) ih

def AreOpen (elements : List PathElement) : Prop := ∀ e ∈ elements, ∀ s ∈ e.index, s = .any

lemma areOpen_subscriptLast {subscripts : List Subscript} (hs : ∀ s ∈ subscripts, s = .any) :
    ∀ {elements : List PathElement}, AreOpen elements → AreOpen (subscriptLast subscripts elements)
  | [], _ => by simpa [subscriptLast, AreOpen] using hs
  | [e], he => by
    obtain he : ∀ s ∈ e.index, s = .any := by simpa [AreOpen] using he
    simp only [AreOpen, subscriptLast, List.forall_mem_singleton, List.forall_mem_append]
    exact ⟨he, hs⟩
  | e :: f :: es, he => by
    obtain ⟨hopen, hes⟩ := List.forall_mem_cons.1 he
    have ih := areOpen_subscriptLast hs hes
    simp only [subscriptLast]
    exact List.forall_mem_cons.2 ⟨hopen, ih⟩

lemma areOpen_foldl_extend {elements : List PathElement} (he : AreOpen elements)
    (steps : List TypeStep) : AreOpen (steps.foldl extend elements) := by
  induction steps generalizing elements with
  | nil => exact he
  | cons s steps ih =>
    refine ih ?_
    cases s with
    | member name =>
      rw [extend, AreOpen, List.forall_mem_append]
      exact ⟨he, by simp⟩
    | items dimensions =>
      exact areOpen_subscriptLast (fun s hs => (List.mem_replicate.1 hs).2) he

lemma areOpen_ofSteps (steps : List TypeStep) : AreOpen (ofSteps steps).elements :=
  areOpen_foldl_extend (by simp [AreOpen]) steps

end MemberPath

end MissionCatalog
