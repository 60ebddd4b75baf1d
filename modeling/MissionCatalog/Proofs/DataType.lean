import MissionCatalog.DataType.Format
import MissionCatalog.Proofs.Except
import MissionCatalog.Proofs.Json.Written

/-!
# Types are read as they were written

The written form of a type spells out its name and all its fields, whatever their defaults are. It
is read back with the fuel that its nesting asks for, inside another type as well as by itself.
-/
namespace MissionCatalog
open Json

lemma EnumLabel.ofJson_toJson (l : EnumLabel) : EnumLabel.ofJson l.toJson = .ok l := by
  refine bind_eq_ok.2 ⟨_, asRecord_of_names (by decide) rfl, ?_⟩
  simp [ok_bind]

lemma EnumLabel.plain_toJson (l : EnumLabel) : l.toJson.Plain :=
  ⟨plain_int64 l.value, trivial, trivial⟩

/-- A member is read back if its type is. Its description is left out if there is none. -/
lemma Member.ofJsonWith_object {readType : Json → Read DataType} (m : Member)
    (h : readType m.type.toJson = .ok m.type) : Member.ofJsonWith readType
      (.object (("name", .string m.name) :: field? "description" (m.description.map .string) ++
        [("type", m.type.toJson)])) = .ok m := by
  obtain ⟨name, description, type⟩ := m
  cases description with
  | none =>
    refine bind_eq_ok.2 ⟨[("name", .string name), ("type", type.toJson)], rfl, ?_⟩
    simp [Fields.optional, h, ok_bind]
  | some description =>
    refine bind_eq_ok.2 ⟨_, asRecord_of_names (by decide) rfl, ?_⟩
    simp [field?, Fields.optional, asOption, Except.map, h, ok_bind]

namespace DataType

/-- The fields that describe a type, behind the one that names it. -/
def descriptionFields : DataType → Fields
  | integer signed bits => [("signed", .bool signed), ("sizeInBits", .ofNat bits.toNat)]
  | float bits => [("sizeInBits", .ofNat bits.toNat)]
  | boolean | text | binary | time => []
  | enumeration labels => [("values", .array (labels.map EnumLabel.toJson))]
  | aggregate members => [("members", .array (membersToJson members))]
  | array dimensions element =>
    [("dimensions", .ofNat dimensions.toNat), ("element", element.toJson)]

lemma toJson_eq (t : DataType) :
    t.toJson = .object (("engType", .string t.typeName) :: t.descriptionFields) := by
  cases t <;> rfl

mutual

lemma plain_toJson : ∀ t : DataType, t.toJson.Plain
  | integer _ bits => ⟨trivial, trivial, plain_uint32 bits, trivial⟩
  | float bits => ⟨trivial, plain_uint32 bits, trivial⟩
  | boolean | text | binary | time => ⟨trivial, trivial⟩
  | enumeration _ => ⟨trivial, plain_array fun l _ => l.plain_toJson, trivial⟩
  | aggregate members => ⟨trivial, plainItems_membersToJson members, trivial⟩
  | array dimensions element =>
    ⟨trivial, plain_uint64 dimensions, plain_toJson element, trivial⟩

lemma plainItems_membersToJson : ∀ members : List Member, PlainItems (membersToJson members)
  | [] => trivial
  | ⟨_, none, type⟩ :: members =>
    ⟨⟨trivial, plain_toJson type, trivial⟩, plainItems_membersToJson members⟩
  | ⟨_, some _, type⟩ :: members =>
    ⟨⟨trivial, trivial, plain_toJson type, trivial⟩, plainItems_membersToJson members⟩

end

lemma splitTag_toJson (nested : Bool) (t : DataType) :
    splitTag nested t.toJson = .ok (t.typeName, .object t.descriptionFields) := by
  have hp := plain_toJson t
  have htag : t.typeName ∈ tags := by cases t <;> simp [typeName, tags]
  have hkeys : ∀ f ∈ t.descriptionFields, f.1 ≠ "engType" := by cases t <;> simp [descriptionFields]
  rw [toJson_eq] at hp ⊢
  have hparts : (("engType", Json.string t.typeName) :: t.descriptionFields).partition
      (·.1 = "engType") = ([("engType", .string t.typeName)], t.descriptionFields) := by
    rw [List.partition_eq_filter_filter, List.filter_cons_of_pos (by simp),
      List.filter_cons_of_neg (by simp), List.filter_eq_nil_iff.2 (by simpa using hkeys),
      List.filter_eq_self.2 (by simpa using hkeys)]
  simp only [splitTag, hparts]
  refine bind_eq_ok.2 ⟨t.typeName, by simp [tagOf, htag], ?_⟩
  rw [if_pos (PlainFields.sound hp.2)]
  rfl

mutual

lemma ofJsonWithin_toJson (t : DataType) (fuel : ℕ) (hf : t.toJson.depth < fuel) (nested : Bool) :
    ofJsonWithin fuel nested t.toJson = .ok t := by
  obtain _ | fuel := fuel
  · omega
  rw [ofJsonWithin]
  refine bind_eq_ok.2 ⟨_, splitTag_toJson nested t, ?_⟩
  cases t with
  | integer signed bits | float bits =>
    refine bind_eq_ok.2 ⟨_, asRecord_of_names (by decide) rfl, ?_⟩
    simp [descriptionFields, ok_bind]
  | boolean | text | binary | time => simp [typeName, plain]
  | enumeration labels =>
    have hlabels := asList_map labels fun l _ => l.ofJson_toJson
    refine bind_eq_ok.2 ⟨_, asRecord_of_names (by decide) rfl, ?_⟩
    simp [descriptionFields, Fields.list, hlabels]
  | aggregate members =>
    have hmembers := mapM_membersToJson members fuel (by
      simp only [toJson, Json.depth, depthFields] at hf
      omega)
    refine bind_eq_ok.2 ⟨_, asRecord_of_names (by decide) rfl, ?_⟩
    simp [descriptionFields, asList, hmembers]
  | array dimensions element =>
    have helement := ofJsonWithin_toJson element fuel (by
      simp only [toJson, Json.depth, depthFields] at hf
      omega) true
    refine bind_eq_ok.2 ⟨_, asRecord_of_names (by decide) rfl, ?_⟩
    simp [descriptionFields, helement, ok_bind]

lemma mapM_membersToJson (members : List Member) (fuel : ℕ)
    (hf : depthItems (membersToJson members) < fuel) :
    (membersToJson members).mapM (Member.ofJsonWith (ofJsonWithin fuel true)) = .ok members := by
  match members with
  | [] => rfl
  | ⟨name, description, type⟩ :: members =>
    simp only [membersToJson, depthItems, Json.depth] at hf
    have htype := ofJsonWithin_toJson type fuel (by
      cases description <;> simp [field?, depthFields] at hf <;> omega) true
    have hmembers := mapM_membersToJson members fuel (by omega)
    have hmember := Member.ofJsonWith_object ⟨name, description, type⟩ htype
    rw [membersToJson, List.mapM_cons, hmember, ok_bind, hmembers]
    rfl

end

theorem ofJson_toJson (t : DataType) : ofJson t.toJson = .ok t :=
  ofJsonWithin_toJson t _ (Nat.lt_succ_self _) false

end DataType

end MissionCatalog
