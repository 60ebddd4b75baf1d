import MissionCatalog.Definition.Format
import MissionCatalog.Proofs.DataType
import MissionCatalog.Proofs.Database.Build

/-!
# Definitions are read as they were written

The text of a catalog definition spells out every field of every space system and member. Reading it
gives the definition back, whatever it says, unless it is nested more deeply than JSON is read.
-/
namespace MissionCatalog
open Json

lemma ObjectId.ofJson_toJson (id : ObjectId) : ofJson id.toJson = .ok id := by
  obtain ⟨name, _ | ns⟩ := id <;> rfl

lemma ObjectId.plain_toJson (id : ObjectId) : id.toJson.Plain := by
  obtain ⟨name, _ | ns⟩ := id <;> simp [toJson, field?, Plain, PlainFields]

namespace Head

lemma names_toFields (h : Head) : h.toFields.map (·.1) = fieldNames := rfl

lemma plainFields_toFields (h : Head) : PlainFields h.toFields := by
  exact ⟨trivial, plain_ofOption h.description, plain_ofOption h.longDescription,
    plain_array fun id _ => id.plain_toJson, trivial⟩

/-- A head is found among the fields of whatever it belongs to. -/
lemma ofFields_toFields_append (h : Head) (fields : Fields) :
    ofFields (h.toFields ++ fields) = .ok h := by
  have haliases := asList_map h.aliases fun id _ => id.ofJson_toJson
  simp [ofFields, toFields, Fields.optional, Fields.list, haliases, ok_bind]

end Head

lemma ContainerEntry.ofJson_toJson (e : ContainerEntry) : ofJson e.toJson = .ok e := by
  cases e <;> rfl

lemma ContainerEntry.plain_toJson (e : ContainerEntry) : e.toJson.Plain := by
  cases e <;> exact ⟨trivial, trivial⟩

lemma Argument.ofJson_toJson (a : Argument) : Argument.ofJson a.toJson = .ok a := by
  obtain ⟨name, _ | description, type, _ | initialValue⟩ := a <;> rfl

lemma Argument.plain_toJson (a : Argument) : a.toJson.Plain := by
  obtain ⟨name, _ | description, type, _ | initialValue⟩ := a <;>
    simp [toJson, field?, Plain, PlainFields]

lemma DataSource.ofJson_toJson (d : DataSource) : ofJson d.toJson = .ok d := by
  simp [ofJson, toJson, asName, ofText?_text]

lemma AlgorithmScope.ofJson_toJson (a : AlgorithmScope) : ofJson a.toJson = .ok a := by
  simp [ofJson, toJson, asName, ofText?_text]

namespace MemberKind

lemma names_detailsToFields (k : MemberKind) (d : k.Details) :
    (k.detailsToFields d).map (·.1) = k.detailNames := by
  cases k <;> rfl

lemma plainFields_detailsToFields (k : MemberKind) (d : k.Details) :
    PlainFields (k.detailsToFields d) := by
  cases k with
  | parameterType => exact ⟨plain_ofOption d.units, d.dataType.plain_toJson, trivial⟩
  | parameter => exact ⟨plain_ofOption d.type, plain_option fun _ _ => trivial, trivial⟩
  | container =>
    exact ⟨plain_ofOption d.base, trivial, plain_option fun n _ => plain_uint32 n,
      plain_array fun e _ => e.plain_toJson, trivial⟩
  | command =>
    exact ⟨plain_ofOption d.base, trivial, plain_ofOption d.significance,
      plain_array fun a _ => a.plain_toJson, trivial⟩
  | algorithm =>
    exact ⟨trivial, plain_ofOption d.language, plain_ofOption d.text, plain_ofStrings d.inputs,
      plain_ofStrings d.outputs, trivial⟩

/-- The details are found behind a head, whose fields have other names. -/
lemma detailsOfFields_append (h : Head) (k : MemberKind) (d : k.Details) :
    k.detailsOfFields (h.toFields ++ k.detailsToFields d) = .ok d := by
  cases k with
  | parameterType =>
    simp [detailsOfFields, detailsToFields, Head.toFields, Fields.optional,
      DataType.ofJson_toJson, ok_bind]
  | parameter =>
    have hsource := asOption_map d.source (by simp [DataSource.toJson]) fun source _ =>
      source.ofJson_toJson
    simp [detailsOfFields, detailsToFields, Head.toFields, Fields.optional, hsource, ok_bind]
  | container =>
    have hsize := asOption_map d.sizeInBits (by simp [Json.ofNat]) fun n _ => asUInt32_ofNat n
    have hentries := asList_map d.entries fun e _ => e.ofJson_toJson
    simp [detailsOfFields, detailsToFields, Head.toFields, Fields.optional, Fields.list, hsize,
      hentries, ok_bind]
  | command =>
    have harguments := asList_map d.arguments fun a _ => a.ofJson_toJson
    simp [detailsOfFields, detailsToFields, Head.toFields, Fields.optional, Fields.list,
      harguments, ok_bind]
  | algorithm =>
    simp [detailsOfFields, detailsToFields, Head.toFields, Fields.optional, Fields.list,
      AlgorithmScope.ofJson_toJson, ok_bind]

end MemberKind

namespace MemberDefinition

variable {k : MemberKind}

lemma plain_toJson (d : MemberDefinition k) : d.toJson.Plain :=
  plainFields_append.2 ⟨d.head.plainFields_toFields, k.plainFields_detailsToFields d.details⟩

theorem ofJson_toJson (d : MemberDefinition k) : ofJson d.toJson = .ok d := by
  have hnames : (d.head.toFields ++ k.detailsToFields d.details).map (·.1) =
      Head.fieldNames ++ k.detailNames := by
    rw [List.map_append, Head.names_toFields, MemberKind.names_detailsToFields]
  have hdistinct : (Head.fieldNames ++ k.detailNames).Nodup := by cases k <;> decide
  refine bind_eq_ok.2 ⟨_, asOpenRecord_of_names hdistinct hnames d.plain_toJson, ?_⟩
  rw [Head.ofFields_toFields_append, ok_bind, MemberKind.detailsOfFields_append]
  rfl

end MemberDefinition

namespace SystemDefinition

lemma listToJson_eq (ds : List SystemDefinition) : listToJson ds = ds.map toJson := by
  induction ds with
  | nil => rfl
  | cons d ds ih => rw [listToJson, ih, List.map_cons]

def bodyFields (d : SystemDefinition) : Fields :=
  [("version", .ofOption d.version),
    ("parameterTypes", .array (d.parameterTypes.map MemberDefinition.toJson)),
    ("parameters", .array (d.parameters.map MemberDefinition.toJson)),
    ("containers", .array (d.containers.map MemberDefinition.toJson)),
    ("commands", .array (d.commands.map MemberDefinition.toJson)),
    ("algorithms", .array (d.algorithms.map MemberDefinition.toJson)),
    ("spaceSystems", .array (d.systems.map toJson))]

lemma toJson_eq (d : SystemDefinition) : d.toJson = .object (d.head.toFields ++ d.bodyFields) := by
  cases d
  rw [toJson, listToJson_eq]
  rfl

lemma plain_toJson (d : SystemDefinition) : d.toJson.Plain := by
  induction d using induction_on_systems with
  | step d ih =>
    have hmembers : ∀ {k : MemberKind} (ms : List (MemberDefinition k)),
        (Json.array (ms.map MemberDefinition.toJson)).Plain :=
      fun ms => plain_array fun m _ => m.plain_toJson
    rw [toJson_eq]
    exact plainFields_append.2 ⟨d.head.plainFields_toFields, plain_ofOption d.version,
      hmembers _, hmembers _, hmembers _, hmembers _, hmembers _, plain_array ih, trivial⟩

lemma depth_toJson_lt {d e : SystemDefinition} (he : e ∈ d.systems) :
    e.toJson.depth < d.toJson.depth := by
  have hlist : e.toJson.depth ≤ depthItems (d.systems.map toJson) :=
    depth_le_depthItems (List.mem_map_of_mem he)
  have hfields : (Json.array (d.systems.map toJson)).depth ≤
      depthFields (d.head.toFields ++ d.bodyFields) :=
    depth_le_depthFields "spaceSystems"
      (List.mem_append_right _ (by simp [bodyFields]))
  have hd : d.toJson.depth = depthFields (d.head.toFields ++ d.bodyFields) + 1 := by
    rw [toJson_eq, Json.depth]
  rw [Json.depth] at hfields
  omega

lemma ofJsonWithin_toJson (d : SystemDefinition) {fuel : ℕ} (hf : d.toJson.depth < fuel) :
    ofJsonWithin fuel d.toJson = .ok d := by
  induction d using induction_on_systems generalizing fuel with
  | step d ih =>
    obtain _ | fuel := fuel
    · omega
    have hmembers : ∀ {k : MemberKind} (ms : List (MemberDefinition k)),
        asList MemberDefinition.ofJson (.array (ms.map MemberDefinition.toJson)) = .ok ms :=
      fun ms => asList_map ms fun m _ => m.ofJson_toJson
    have hsystems : asList (ofJsonWithin fuel) (.array (d.systems.map toJson)) = .ok d.systems := by
      refine asList_map d.systems fun e he => ih e he ?_
      have hlt := depth_toJson_lt he
      omega
    have hp := d.plain_toJson
    rw [toJson_eq] at hp ⊢
    refine bind_eq_ok.2 ⟨_, asOpenRecord_of_names (by decide) rfl hp, ?_⟩
    rw [Head.ofFields_toFields_append, ok_bind]
    simp [Head.toFields, bodyFields, Fields.optional, Fields.list, hmembers, hsystems, ok_bind]
    cases d
    rfl

theorem ofJson_toJson (d : SystemDefinition) : ofJson d.toJson = .ok d :=
  d.ofJsonWithin_toJson (Nat.lt_succ_self _)

end SystemDefinition

namespace CatalogDefinition

lemma plain_toJson (d : CatalogDefinition) : d.toJson.Plain := by
  rw [toJson, SystemDefinition.listToJson_eq]
  exact ⟨trivial, plain_ofOption d.version, plain_array fun s _ => s.plain_toJson, trivial⟩

theorem ofJson_toJson (d : CatalogDefinition) : ofJson d.toJson = .ok d := by
  have hsystems := asList_map d.systems fun s _ => s.ofJson_toJson
  rw [toJson, SystemDefinition.listToJson_eq]
  refine bind_eq_ok.2 ⟨_, asRecord_of_names (by decide) rfl, ?_⟩
  simp [Fields.optional, Fields.list, hsystems, ok_bind]

/-- The text of every definition is read as this definition, unless it is nested too deeply to be
read at all. -/
theorem definitions_read_back (d : CatalogDefinition) (shallow : d.toJson.depth ≤ maxDepth) :
    parse? d.render = some d := by
  rw [parse?, render, read?_render d.plain_toJson shallow, Option.bind_some, ofJson_toJson]
  rfl

end CatalogDefinition

/-- A catalog in which hardly a field holds what it would hold by default. -/
def contraryCatalog : CatalogDefinition where
  name := "contrary \"\x7b"
  version := some ""
  systems := [{
    head := ⟨"S", some "π", none, [⟨"N", none⟩, ⟨"N", some "MDB:OPS"⟩]⟩
    version := none
    parameterTypes := [⟨⟨"T", none, some "\n", []⟩,
      ⟨some "V", .array 0 (.aggregate [
        ⟨"a", none, .integer false 16⟩,
        ⟨"b", some "", .array 2 (.float 64)⟩,
        ⟨"c", none, .enumeration [⟨-9223372036854775808, "low"⟩,
          ⟨9223372036854775807, "high"⟩]⟩])⟩⟩]
    parameters := [⟨⟨"P", none, none, []⟩, ⟨some "T", some .commandHistory⟩⟩]
    containers := [⟨⟨"C", none, none, []⟩,
      ⟨none, true, some 4294967295, [.parameter "P", .container "C"]⟩⟩]
    commands := [⟨⟨"D", none, none, []⟩,
      ⟨none, true, some "watch", [⟨"x", none, "t", some "1"⟩]⟩⟩]
    algorithms := [⟨⟨"A", none, none, []⟩,
      ⟨.commandVerification, none, some "", ["P"], []⟩⟩]
    systems := [⟨⟨"I", none, none, []⟩, none, [], [], [], [], [], []⟩] }]

theorem definitions_read_back_contrary : contraryCatalog.toJson.depth ≤ maxDepth ∧
    CatalogDefinition.parse? contraryCatalog.render = some contraryCatalog := by
  have hdepth : contraryCatalog.toJson.depth ≤ maxDepth := by decide +kernel
  exact ⟨hdepth, CatalogDefinition.definitions_read_back contraryCatalog hdepth⟩

end MissionCatalog
