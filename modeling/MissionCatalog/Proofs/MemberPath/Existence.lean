import Mathlib
import MissionCatalog.MemberPath.Basic

/-!
# Paths that exist in a type

Every element of a path leads on by its name, into an aggregate, and then by its subscripts, into an
array. A path exists in a type if all of its elements lead on.
-/
namespace MissionCatalog

namespace DataType

/-- A name leads into an aggregate, to the first member that has it. -/
inductive LeadsByName : DataType → Option String → DataType → Prop
  | unnamed {t : DataType} : LeadsByName t none t
  | first {before after : List Member} {m : Member}
      (others : ∀ other ∈ before, other.name ≠ m.name) :
      LeadsByName (.aggregate (before ++ m :: after)) (some m.name) m.type

/-- Subscripts lead into an array that has a dimension for each of them. -/
inductive LeadsByIndex : DataType → List Subscript → DataType → Prop
  | unsubscripted {t : DataType} : LeadsByIndex t [] t
  | items {dimensions : UInt64} {element : DataType} {index : List Subscript}
      (subscripted : index ≠ []) (count : index.length = dimensions.toNat) :
      LeadsByIndex (.array dimensions element) index element

/-- The elements of a path lead from the first type to the second. -/
inductive Reaches : DataType → List PathElement → DataType → Prop
  | here {t : DataType} : Reaches t [] t
  | element {t u v w : DataType} {e : PathElement} {elements : List PathElement}
      (name : t.LeadsByName e.name u) (index : u.LeadsByIndex e.index v)
      (rest : Reaches v elements w) : Reaches t (e :: elements) w

lemma leadsByName_some_iff {t u : DataType} {name : String} :
    t.LeadsByName (some name) u ↔ ∃ m, t.member? name = some m ∧ m.type = u := by
  constructor
  · intro h
    cases h with
    | first others =>
      refine ⟨_, ?_, rfl⟩
      rw [member?, List.find?_eq_some_iff_append]
      exact ⟨by simp, _, _, rfl, by simpa using others⟩
  · rintro ⟨m, hm, rfl⟩
    cases t with
    | aggregate members =>
      rw [member?, List.find?_eq_some_iff_append] at hm
      obtain ⟨hname, before, after, rfl, others⟩ := hm
      obtain rfl : m.name = name := by simpa using hname
      exact .first (by simpa using others)
    | _ => simp [member?] at hm

lemma leadsByIndex_cons_iff {t u : DataType} {s : Subscript} {index : List Subscript} :
    t.LeadsByIndex (s :: index) u ↔
      ∃ dimensions, t = .array dimensions u ∧ dimensions.toNat = index.length + 1 := by
  constructor
  · intro h
    cases h with
    | items subscripted count => exact ⟨_, rfl, count.symm⟩
  · rintro ⟨dimensions, rfl, count⟩
    exact .items (List.cons_ne_nil s index) count.symm

end DataType

namespace MemberPath

lemma stepType?_unnamed_iff {index : List Subscript} {t u : DataType} :
    stepType? ⟨none, index⟩ t = some u ↔ t.LeadsByIndex index u := by
  cases index with
  | nil =>
    constructor
    · intro h
      obtain rfl : t = u := by simpa [stepType?] using h
      exact .unsubscripted
    · intro h
      cases h with
      | unsubscripted => rfl
      | items subscripted count => exact absurd rfl subscripted
  | cons s index =>
    rw [DataType.leadsByIndex_cons_iff]
    cases t with
    | array dimensions element =>
      simp [stepType?, DataType.array.injEq, and_comm]
    | _ => simp [stepType?]

lemma stepType?_named (name : String) (index : List Subscript) (t : DataType) :
    stepType? ⟨some name, index⟩ t =
      (t.member? name).bind fun m => stepType? ⟨none, index⟩ m.type := by
  cases h : t.member? name <;> simp [stepType?, h]

lemma stepType?_eq_some_iff {e : PathElement} {t v : DataType} :
    stepType? e t = some v ↔ ∃ u, t.LeadsByName e.name u ∧ u.LeadsByIndex e.index v := by
  obtain ⟨_ | name, index⟩ := e
  · rw [stepType?_unnamed_iff]
    constructor
    · exact fun h => ⟨t, .unnamed, h⟩
    · rintro ⟨_, ⟨⟩, h⟩
      exact h
  · simp only [stepType?_named, Option.bind_eq_some_iff, stepType?_unnamed_iff,
      DataType.leadsByName_some_iff]
    constructor
    · rintro ⟨m, hm, h⟩
      exact ⟨_, ⟨m, hm, rfl⟩, h⟩
    · rintro ⟨_, ⟨m, hm, rfl⟩, h⟩
      exact ⟨m, hm, h⟩

lemma typeAt?_cons (e : PathElement) (elements : List PathElement) (t : DataType) :
    typeAt? ⟨e :: elements⟩ t = (stepType? e t).bind fun u => typeAt? ⟨elements⟩ u := by
  rw [typeAt?, List.foldlM_cons]
  rfl

lemma typeAt?_eq_some_iff {elements : List PathElement} {t u : DataType} :
    typeAt? ⟨elements⟩ t = some u ↔ t.Reaches elements u := by
  induction elements generalizing t with
  | nil =>
    constructor
    · intro h
      obtain rfl : t = u := by simpa [typeAt?] using h
      exact .here
    · rintro ⟨⟩
      rfl
  | cons e elements ih =>
    simp only [typeAt?_cons, Option.bind_eq_some_iff, stepType?_eq_some_iff, ih]
    constructor
    · rintro ⟨_, ⟨_, name, index⟩, rest⟩
      exact .element name index rest
    · intro h
      cases h with
      | element name index rest => exact ⟨_, ⟨_, name, index⟩, rest⟩

lemma fits_iff {p : MemberPath} {t : DataType} :
    p.fits t ↔ ∃ u, t.Reaches p.elements u := by
  rw [fits, Option.isSome_iff_exists]
  exact exists_congr fun _ => typeAt?_eq_some_iff

end MemberPath

end MissionCatalog
