import MissionCatalog.Json.Shape
import MissionCatalog.Proofs.Except

/-!
# Fields of a record

An object that has fields of other names besides those of a record is read as the record, if it has
none of the record's own fields twice.
-/
namespace MissionCatalog.Json

/-- The values that an object has under the key, in their order. -/
def valuesOf (fields : Fields) (key : String) : List Json :=
  (fields.filter fun f => f.1 = key).map (·.2)

lemma lookup_eq_head? (fields : Fields) (key : String) :
    fields.lookup key = (valuesOf fields key).head? := by
  induction fields with
  | nil => rfl
  | cons f fields ih =>
    obtain ⟨name, v⟩ := f
    by_cases h : name = key
    · subst h
      simp [valuesOf]
    · have hne : (key == name) = false := by simpa using Ne.symm h
      rw [List.lookup_cons, hne, ih]
      simp [valuesOf, h]

lemma valuesOf_filter {names : List String} {key : String} (h : key ∈ names) (fields : Fields) :
    valuesOf (fields.filter fun f => names.contains f.1) key = valuesOf fields key := by
  rw [valuesOf, valuesOf, List.filter_filter]
  congr 1
  refine List.filter_congr fun f _ => ?_
  by_cases hf : f.1 = key <;> simp [hf, h]

lemma valuesOf_filter_of_not_mem {names : List String} {key : String} (h : key ∉ names)
    (fields : Fields) : valuesOf (fields.filter fun f => names.contains f.1) key = [] := by
  simp only [valuesOf, List.filter_filter, List.map_eq_nil_iff, List.filter_eq_nil_iff]
  intro f _
  by_cases hf : f.1 = key <;> simp [hf, h]

lemma lookup_filter {names : List String} {key : String} (h : key ∈ names) (fields : Fields) :
    (fields.filter fun f => names.contains f.1).lookup key = (valuesOf fields key).head? := by
  rw [lookup_eq_head?, valuesOf_filter h]

lemma distinct_iff {fields : Fields} :
    fields.distinct ↔ ∀ key, (valuesOf fields key).length ≤ 1 := by
  have hcount : ∀ key, (fields.map (·.1)).count key = (valuesOf fields key).length := by
    intro key
    rw [valuesOf, List.length_map, ← List.countP_eq_length_filter, List.count, List.countP_map]
    rfl
  rw [Fields.distinct, decide_eq_true_eq, List.nodup_iff_count_le_one]
  exact forall_congr' fun key => by rw [hcount]

lemma asRecord_object_eq_ok {names : List String} {fields fs : Fields} :
    (object fields).asRecord names = .ok fs ↔
      fs = (fields.filter fun f => names.contains f.1) ∧
        ∀ key ∈ names, (valuesOf fields key).length ≤ 1 := by
  have hdistinct : Fields.distinct (fields.filter fun f => names.contains f.1) ↔
      ∀ key ∈ names, (valuesOf fields key).length ≤ 1 := by
    rw [distinct_iff]
    constructor
    · intro h key hkey
      rw [← valuesOf_filter hkey]
      exact h key
    · intro h key
      by_cases hkey : key ∈ names
      · rw [valuesOf_filter hkey]
        exact h key hkey
      · rw [valuesOf_filter_of_not_mem hkey]
        exact Nat.zero_le 1
  rw [← hdistinct, asRecord]
  split
  · next hd => rw [Except.ok.injEq, and_iff_left hd, eq_comm]
  · next hd => exact iff_of_false (by simp) fun h => hd h.2

lemma asString_eq_ok {j : Json} {s : String} : j.asString = .ok s ↔ j = .string s := by
  cases j <;> simp [asString]

lemma asNat_eq_ok {j : Json} {bound n : ℕ} : j.asNat bound = .ok n ↔ j = .int n ∧ n < bound := by
  cases j with
  | int m =>
    rw [asNat]
    split
    · next h => simp; omega
    · next h => simp; omega
  | _ => simp [asNat]

lemma required_eq_ok {α : Type} {fs : Fields} {key : String} {read : Json → Read α}
    {a : α} : fs.required key read = .ok a ↔ ∃ j, fs.lookup key = some j ∧ read j = .ok a := by
  rw [Fields.required]
  cases fs.lookup key <;> simp

end MissionCatalog.Json
