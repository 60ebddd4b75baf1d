import MissionCatalog.Directory
import MissionCatalog.Proofs.Json.Record
import MissionCatalog.Proofs.Json.RoundTrip

/-!
# Typed values in written JSON

What the readers of typed values make of the JSON that was written for them: a record with all its
fields in their order, a list of values that can each be read back, and the scalars.
-/
namespace MissionCatalog.Json

variable {α : Type}

lemma plainItems_iff {items : List Json} : PlainItems items ↔ ∀ x ∈ items, x.Plain := by
  induction items with
  | nil => simp [PlainItems]
  | cons x items ih => simp [PlainItems, ih]

lemma plainFields_append {fields fields' : Fields} :
    PlainFields (fields ++ fields') ↔ PlainFields fields ∧ PlainFields fields' := by
  induction fields with
  | nil => simp [PlainFields]
  | cons f fields ih => simp [PlainFields, ih, and_assoc]

lemma PlainFields.plain {fields : Fields} (h : PlainFields fields) {f : String × Json}
    (hf : f ∈ fields) : f.2.Plain := by
  induction fields with
  | nil => simp at hf
  | cons g fields ih =>
    rcases List.mem_cons.1 hf with rfl | hf
    · exact h.1
    · exact ih h.2 hf

mutual

lemma Plain.sound : ∀ {j : Json}, j.Plain → j.sound
  | null, _ | bool _, _ | int _, _ | string _, _ => rfl
  | real _, h | flawed _, h | misnamed _, h => by simp [Plain] at h
  | array _, h => PlainItems.sound h
  | object _, h => PlainFields.sound h

lemma PlainItems.sound : ∀ {items : List Json}, PlainItems items → soundItems items
  | [], _ => rfl
  | _ :: _, ⟨hx, hxs⟩ => by rw [soundItems, hx.sound, PlainItems.sound hxs, Bool.and_self]

lemma PlainFields.sound : ∀ {fields : Fields}, PlainFields fields → soundFields fields
  | [], _ => rfl
  | _ :: _, ⟨hv, hfs⟩ => by rw [soundFields, hv.sound, PlainFields.sound hfs, Bool.and_self]

end

lemma plain_array {write : α → Json} {items : List α} (h : ∀ a ∈ items, (write a).Plain) :
    (array (items.map write)).Plain := by
  simpa [Plain, plainItems_iff] using h

lemma plain_option {write : α → Json} {value : Option α} (h : ∀ a ∈ value, (write a).Plain) :
    ((value.map write).getD .null).Plain := by
  cases value with
  | none => trivial
  | some a => exact h a rfl

lemma plain_ofOption (value : Option String) : (ofOption value).Plain := by
  cases value <;> trivial

lemma plain_ofStrings (items : List String) : (ofStrings items).Plain :=
  plain_array fun _ _ => trivial

lemma plain_uint64 (n : UInt64) : (ofNat n.toNat).Plain := by
  have hn := n.toNat_lt
  constructor <;> omega

lemma plain_uint32 (n : UInt32) : (ofNat n.toNat).Plain := by
  have hn := n.toNat_lt
  constructor <;> omega

lemma plain_int64 (n : Int64) : (int n.toInt).Plain := by
  have hlower := n.le_toInt
  have hupper := n.toInt_lt
  constructor <;> omega

lemma depth_le_depthItems {items : List Json} {x : Json} (hx : x ∈ items) :
    x.depth ≤ depthItems items := by
  induction items with
  | nil => simp at hx
  | cons y items ih =>
    rw [depthItems]
    rcases List.mem_cons.1 hx with rfl | hx
    · exact Nat.le_max_left _ _
    · exact (ih hx).trans (Nat.le_max_right _ _)

lemma depth_le_depthFields (key : String) {fields : Fields} {v : Json} (h : (key, v) ∈ fields) :
    v.depth ≤ depthFields fields := by
  induction fields with
  | nil => simp at h
  | cons f fields ih =>
    rw [depthFields]
    rcases List.mem_cons.1 h with rfl | h
    · exact Nat.le_max_left _ _
    · exact (ih h).trans (Nat.le_max_right _ _)

lemma asRecord_of_names {names : List String} {fields : Fields} (hn : names.Nodup)
    (h : fields.map (·.1) = names) : (object fields).asRecord names = .ok fields := by
  have hknown : (fields.filter fun f => names.contains f.1) = fields := by
    refine List.filter_eq_self.2 fun f hf => ?_
    rw [List.contains_iff_mem, ← h]
    exact List.mem_map_of_mem hf
  have hdistinct : Fields.distinct fields := by rwa [Fields.distinct, decide_eq_true_eq, h]
  simp only [asRecord, hknown, hdistinct, if_true]

lemma asOpenRecord_of_names {names aside : List String} {fields : Fields}
    (hn : (aside ++ names).Nodup) (h : fields.map (·.1) = aside ++ names)
    (hp : PlainFields fields) : (object fields).asOpenRecord names aside = .ok fields := by
  have hsound : (fields.any fun f => !names.contains f.1 && !f.2.sound) = false := by
    refine List.any_eq_false.2 fun f hf => ?_
    simp [(hp.plain hf).sound]
  have hknown : (fields.filter fun f => names.contains f.1 || aside.contains f.1) = fields := by
    refine List.filter_eq_self.2 fun f hf => ?_
    have hmem : f.1 ∈ aside ++ names := h ▸ List.mem_map_of_mem hf
    simpa [or_comm] using hmem
  have hdistinct : Fields.distinct fields := by rwa [Fields.distinct, decide_eq_true_eq, h]
  simp only [asOpenRecord, hsound, hknown, hdistinct, Bool.false_eq_true, if_false, if_true]

section Fields

variable {key name : String} {v : Json} {fields : Fields} {default : α} {read : Json → Read α}

@[simp] lemma required_cons : Fields.required ((name, v) :: fields) key read =
    if key = name then read v else Fields.required fields key read := by
  by_cases h : key = name <;> simp [Fields.required, Directory.lookup_cons_eq, h]

@[simp] lemma withDefault_cons : Fields.withDefault ((name, v) :: fields) key default read =
    if key = name then read v else Fields.withDefault fields key default read := by
  by_cases h : key = name <;> simp [Fields.withDefault, Directory.lookup_cons_eq, h]

@[simp] lemma withDefault_nil : Fields.withDefault [] key default read = .ok default := rfl

end Fields

lemma asList_map {read : Json → Read α} {write : α → Json} (items : List α)
    (h : ∀ a ∈ items, read (write a) = .ok a) :
    asList read (.array (items.map write)) = .ok items := by
  rw [asList]
  induction items with
  | nil => rfl
  | cons a items ih =>
    obtain ⟨ha, hitems⟩ := List.forall_mem_cons.1 h
    rw [List.map_cons, List.mapM_cons, ha, ih hitems]
    rfl

/-- A value that may be absent is read back if no value is written like its absence. -/
lemma asOption_map {read : Json → Read α} {write : α → Json} (value : Option α)
    (hnull : ∀ a ∈ value, write a ≠ .null) (h : ∀ a ∈ value, read (write a) = .ok a) :
    asOption read ((value.map write).getD .null) = .ok value := by
  cases value with
  | none => rfl
  | some a =>
    rw [Option.map_some, Option.getD_some, asOption, h a rfl]
    · rfl
    · exact hnull a rfl

@[simp] lemma asString_string (s : String) : asString (.string s) = .ok s := rfl

@[simp] lemma asOption_ofOption (value : Option String) :
    asOption asString (ofOption value) = .ok value := by
  cases value <;> rfl

@[simp] lemma asList_ofStrings (items : List String) :
    asList asString (ofStrings items) = .ok items :=
  asList_map items fun _ _ => rfl

@[simp] lemma asBool_bool (b : Bool) : asBool (.bool b) = .ok b := rfl

@[simp] lemma asUInt32_ofNat (n : UInt32) : asUInt32 (.ofNat n.toNat) = .ok n := by
  rw [asUInt32, ofNat, asNat_eq_ok.2 ⟨rfl, n.toNat_lt_size⟩]
  exact congrArg Except.ok UInt32.ofNat_toNat

@[simp] lemma asUInt64_ofNat (n : UInt64) : asUInt64 (.ofNat n.toNat) = .ok n := by
  rw [asUInt64, ofNat, asNat_eq_ok.2 ⟨rfl, n.toNat_lt_size⟩]
  exact congrArg Except.ok UInt64.ofNat_toNat

@[simp] lemma asInt64_int (n : Int64) : asInt64 (.int n.toInt) = .ok n := by
  rw [asInt64, if_pos ⟨n.minValue_le_toInt, n.toInt_le⟩, Int64.ofInt_toInt]

end MissionCatalog.Json
