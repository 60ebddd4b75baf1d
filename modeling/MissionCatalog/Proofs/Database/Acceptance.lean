import MissionCatalog.Proofs.Database.WellFormed

/-!
# Which catalogs are accepted

The checks of `build` are spread over its steps, in the order of the definition. All together they
accept a catalog just if it is well-formed: if the names are valid, the entities of every table
distinct, and the references of all members found.
-/
namespace MissionCatalog
open Name

namespace SystemDefinition

def memberNames (k : MemberKind) (parent : String) (d : SystemDefinition) : List String :=
  ((d.steps parent).filterMap (Step.member? k)).map Entity.qualifiedName

def ownMemberNames (k : MemberKind) (parent : String) (d : SystemDefinition) : List String :=
  (d.members k).map fun m => qualify (qualify parent d.head.name) m.head.name

def systemNames (parent : String) (d : SystemDefinition) : List String :=
  (d.nodes parent).map SpaceSystem.qualifiedName

def ownName (parent : String) (d : SystemDefinition) : List String :=
  [qualify parent d.head.name]

lemma filterMap_declarations (k : MemberKind) (d : SystemDefinition) (qualified : String) :
    (d.declarations qualified).filterMap (Step.member? k) =
      (d.members k).map (Entity.ofDefinition qualified) := by
  cases k <;> simp [declarations, MemberKind.all, Step.member?, Function.comp_def]

lemma collects_memberNames (k : MemberKind) : Collects (memberNames k) (ownMemberNames k) := by
  intro parent d
  rw [memberNames, steps_eq, ownSteps, List.cons_append, List.filterMap_cons_none rfl,
    List.filterMap_append, filterMap_declarations, List.map_append, List.map_map,
    List.filterMap_flatMap, List.map_flatMap]
  rfl

lemma collects_systemNames : Collects systemNames ownName := by
  intro parent d
  rw [systemNames, nodes_eq, List.map_append, List.map_flatMap]
  exact List.perm_append_comm

end SystemDefinition

namespace CatalogDefinition

variable {c : CatalogDefinition} {k : MemberKind}

lemma map_entities (c : CatalogDefinition) (k : MemberKind) :
    (c.entities k).map Entity.qualifiedName =
      c.systems.flatMap (SystemDefinition.memberNames k "") := by
  rw [entities, steps, SystemDefinition.stepsOfList_eq, List.filterMap_flatMap, List.map_flatMap]
  rfl

lemma map_nodes (c : CatalogDefinition) :
    c.nodes.map SpaceSystem.qualifiedName =
      "" :: c.systems.flatMap (SystemDefinition.systemNames "") := by
  rw [nodes, List.map_cons, SystemDefinition.nodesOfList_eq, List.map_flatMap]
  rfl

lemma exists_entity_iff {name : String} :
    (∃ e ∈ c.entities k, e.qualifiedName = name) ↔ c.Declares k name := by
  constructor
  · rintro ⟨e, he, rfl⟩
    obtain ⟨parent, d, hp, m, hm, rfl⟩ := mem_entities.1 he
    exact ⟨parent, d, hp, m, hm, rfl⟩
  · rintro ⟨parent, d, hp, m, hm, rfl⟩
    exact ⟨_, mem_entities.2 ⟨parent, d, hp, m, hm, rfl⟩, rfl⟩

end CatalogDefinition

lemma Head.mem_aliasKeys {h : Head} {key : Key} :
    key ∈ h.aliasKeys ↔ ⟨key.name, some key.space⟩ ∈ h.aliases := by
  rw [aliasKeys, List.mem_filterMap]
  constructor
  · rintro ⟨⟨name, _ | ns⟩, hid, hk⟩
    · simp [ObjectId.key?] at hk
    · obtain rfl : Key.mk ns name = key := by simpa [ObjectId.key?] using hk
      exact hid
  · intro hid
    exact ⟨_, hid, rfl⟩

lemma Head.claims_iff {h : Head} {owner : String} {key : Key} : h.Claims owner key ↔
    key = ⟨canonicalNamespace owner, h.name⟩ ∨ ⟨key.name, some key.space⟩ ∈ h.aliases := by
  obtain ⟨space, name⟩ := key
  rw [Claims, canonicalNamespace, Key.mk.injEq, and_comm]

lemma Entity.mem_keys {k : MemberKind} {e : Entity k} {key : Key} :
    key ∈ Declared.keys e ↔ e.head.Claims e.owner key := by
  have hkeys : Declared.keys e =
      e.head.aliasKeys ++ [⟨canonicalNamespace e.owner, e.head.name⟩] := rfl
  rw [hkeys, List.mem_append, List.mem_singleton, Head.mem_aliasKeys, Head.claims_iff, or_comm]

lemma SpaceSystem.mem_keys {s : SpaceSystem} {parent : String} (hp : s.parent = some parent)
    {key : Key} : key ∈ Declared.keys s ↔ s.head.Claims parent key := by
  have hkeys : Declared.keys s =
      s.head.aliasKeys ++ [⟨canonicalNamespace parent, s.head.name⟩] := by
    simp [Declared.keys, SpaceSystem.keys, hp]
  rw [hkeys, List.mem_append, List.mem_singleton, Head.mem_aliasKeys, Head.claims_iff, or_comm]

lemma SpaceSystem.mem_keys_of_mem_aliases {s : SpaceSystem} {key : Key}
    (h : ⟨key.name, some key.space⟩ ∈ s.head.aliases) : key ∈ Declared.keys s :=
  List.mem_append_left _ (Head.mem_aliasKeys.2 h)

lemma refers_iff {k : MemberKind} {details : k.Details} {target : MemberKind} {name : String} :
    Refers details target name ↔
      ∃ r ∈ k.references details, r.role.target = target ∧ r.name = name := by
  constructor
  · intro h
    cases h with
    | type h => exact ⟨⟨.type, name⟩, by simp [MemberKind.references, h], rfl, rfl⟩
    | baseContainer h => exact ⟨⟨.baseContainer, name⟩, by simp [MemberKind.references, h], rfl, rfl⟩
    | parameterEntry h =>
      exact ⟨⟨.parameterEntry, name⟩,
        List.mem_append_right _ (List.mem_map.2 ⟨_, h, rfl⟩), rfl, rfl⟩
    | containerEntry h =>
      exact ⟨⟨.containerEntry, name⟩,
        List.mem_append_right _ (List.mem_map.2 ⟨_, h, rfl⟩), rfl, rfl⟩
    | baseCommand h => exact ⟨⟨.baseCommand, name⟩, by simp [MemberKind.references, h], rfl, rfl⟩
    | input h => exact ⟨⟨.algorithmParameter, name⟩, by simp [MemberKind.references, h], rfl, rfl⟩
    | output h => exact ⟨⟨.algorithmParameter, name⟩, by simp [MemberKind.references, h], rfl, rfl⟩
  · rintro ⟨r, hr, rfl, rfl⟩
    cases k with
    | parameterType => simp [MemberKind.references] at hr
    | parameter =>
      obtain ⟨name, hname, rfl⟩ := List.mem_map.1 hr
      exact .type (Option.mem_toList.1 hname)
    | container =>
      rcases List.mem_append.1 hr with hr | hr
      · obtain ⟨name, hname, rfl⟩ := List.mem_map.1 hr
        exact .baseContainer (Option.mem_toList.1 hname)
      · obtain ⟨entry, hentry, rfl⟩ := List.mem_map.1 hr
        cases entry with
        | parameter name => exact .parameterEntry hentry
        | container name => exact .containerEntry hentry
    | command =>
      obtain ⟨name, hname, rfl⟩ := List.mem_map.1 hr
      exact .baseCommand (Option.mem_toList.1 hname)
    | algorithm =>
      obtain ⟨name, hname, rfl⟩ := List.mem_map.1 hr
      exact (List.mem_append.1 hname).elim .input .output

namespace CatalogDefinition

variable {c : CatalogDefinition} {k : MemberKind}

lemma claims_member_iff {name : String} {key : Key} : c.Claims k name key ↔
    ∃ e ∈ c.entities k, Declared.qualifiedName e = name ∧ key ∈ Declared.keys e := by
  constructor
  · intro h
    cases h with
    | member hp hm hc =>
      exact ⟨_, mem_entities.2 ⟨_, _, hp, _, hm, rfl⟩, rfl, Entity.mem_keys.2 hc⟩
  · rintro ⟨e, he, rfl, hk⟩
    obtain ⟨parent, d, hp, m, hm, rfl⟩ := mem_entities.1 he
    exact .member hp hm (Entity.mem_keys.1 hk)

lemma claims_system_iff {name : String} {key : Key} : c.Claims .spaceSystem name key ↔
    ∃ s ∈ c.nodes, Declared.qualifiedName s = name ∧ key ∈ Declared.keys s := by
  constructor
  · intro h
    cases h with
    | system hp hc => exact ⟨_, mem_nodes.2 (.inr ⟨_, _, hp, rfl⟩), rfl, (SpaceSystem.mem_keys rfl).2 hc⟩
  · rintro ⟨s, hs, rfl, hk⟩
    rcases mem_nodes.1 hs with rfl | ⟨parent, d, hp, rfl⟩
    · exact absurd hk List.not_mem_nil
    · exact .system hp ((SpaceSystem.mem_keys rfl).1 hk)

/-- The three kinds of checks that `build` makes, each over the whole catalog. -/
structure Passes (c : CatalogDefinition) : Prop where
  valid : ∀ s ∈ c.steps, s.IsValid
  entities : ∀ k, Table.Distinct (c.entities k)
  nodes : Table.Distinct c.nodes
  references : ∀ k, ∀ e ∈ c.entities k, ∀ r ∈ e.references,
    ∃ f ∈ c.entities r.role.target, f.qualifiedName = r.name

instance : Decidable c.Passes :=
  decidable_of_iff ((∀ s ∈ c.steps, s.IsValid) ∧
      (∀ k ∈ MemberKind.all, Table.Distinct (c.entities k)) ∧ Table.Distinct c.nodes ∧
      ∀ k ∈ MemberKind.all, ∀ e ∈ c.entities k, ∀ r ∈ e.references,
        ∃ f ∈ c.entities r.role.target, f.qualifiedName = r.name)
    ⟨fun ⟨hv, he, hn, hr⟩ => ⟨hv, fun k => he k k.mem_all, hn, fun k => hr k k.mem_all⟩,
      fun h => ⟨h.valid, fun k _ => h.entities k, h.nodes, fun k _ => h.references k⟩⟩

theorem exists_build_iff_passes : (∃ db, Database.build c = .ok db) ↔ c.Passes := by
  constructor
  · rintro ⟨db, hb⟩
    have h := Database.holds_of_build hb
    refine ⟨h.valid, fun k => (h.consistent k).distinct_sorted.perm (h.sorted_perm k),
      h.systemsConsistent.distinct_sorted.perm h.systems_perm, fun k e he r hr => ?_⟩
    obtain ⟨-, -, hd, -⟩ := Database.build_eq_ok.1 hb
    have hfound := Database.dangling?_eq_none_iff.1 hd k e (h.mem_sorted_iff.2 he) r hr
    obtain ⟨f, hf, hname⟩ := (h.consistent _).contains_iff.1 hfound
    exact ⟨f, h.mem_sorted_iff.1 hf, hname⟩
  · intro h
    obtain ⟨members, hfilled⟩ := Members.exists_tables fun k =>
      Table.consistent_empty.exists_foldlM_insert (h.entities k)
    obtain ⟨systems, hs⟩ : ∃ systems, c.nodes.foldlM Table.insert .empty = .ok systems :=
      Table.consistent_empty.exists_foldlM_insert h.nodes
    have hm : c.steps.foldlM Members.take .empty = .ok members :=
      Members.foldlM_take_eq_ok.2 ⟨h.valid, fun k => Members.table_empty k ▸ hfilled k⟩
    have htable := fun k => Table.consistent_empty.foldlM_insert (hfilled k)
    let users := UserIndex.ofContainers (members.table .container).sorted
    refine ⟨⟨c.name, c.version, c.root, systems, members, users⟩,
      Database.build_eq_ok.2 ⟨hm, hs, Database.dangling?_eq_none_iff.2 ?_, rfl, rfl, rfl, rfl⟩⟩
    intro k e he r hr
    obtain ⟨f, hf, hname⟩ := h.references k e ((htable k).2.1.mem_iff.1 he) r hr
    exact (htable _).1.contains_iff.2 ⟨f, (htable _).2.1.mem_iff.2 hf, hname⟩

lemma valid_iff : (∀ s ∈ c.steps, s.IsValid) ↔ ∀ {parent d}, c.Places parent d →
    isValid d.head.name ∧ ∀ k, ∀ m ∈ d.members k, isValid m.head.name := by
  constructor
  · intro h parent d hp
    have hown : ∀ s ∈ d.ownSteps parent, s.IsValid := fun s hs => h s (mem_steps.2 ⟨_, _, hp, hs⟩)
    refine ⟨hown (.enter d.head.name parent) List.mem_cons_self, fun k m hm => ?_⟩
    exact hown (.declare (Entity.ofDefinition (qualify parent d.head.name) m))
      (List.mem_cons_of_mem _ (SystemDefinition.declare_mem_declarations.2 ⟨m, hm, rfl⟩))
  · intro h s hs
    obtain ⟨parent, d, hp, hs⟩ := mem_steps.1 hs
    rcases List.mem_cons.1 hs with rfl | hs
    · exact (h hp).1
    · cases s with
      | enter name above => simp [SystemDefinition.declarations] at hs
      | declare e =>
        obtain ⟨m, hm, rfl⟩ := SystemDefinition.declare_mem_declarations.1 hs
        exact (h hp).2 _ m hm

lemma references_iff :
    (∀ k, ∀ e ∈ c.entities k, ∀ r ∈ e.references,
      ∃ f ∈ c.entities r.role.target, f.qualifiedName = r.name) ↔
    ∀ {parent d}, c.Places parent d → ∀ {k}, ∀ m ∈ d.members k, ∀ {target name},
      Refers m.details target name →
        c.Declares target (absolute (qualify parent d.head.name) name) := by
  constructor
  · intro h parent d hp k m hm target name hrefers
    obtain ⟨r, hr, rfl, rfl⟩ := refers_iff.1 hrefers
    refine exists_entity_iff.1 (h k _ (mem_entities.2 ⟨_, _, hp, m, hm, rfl⟩)
      ⟨r.role, absolute (qualify parent d.head.name) r.name⟩ ?_)
    rw [Entity.references, Entity.ofDefinition, MemberKind.references_mapReferences]
    exact List.mem_map.2 ⟨r, hr, rfl⟩
  · intro h k e he absolute hmem
    obtain ⟨parent, d, hp, m, hm, rfl⟩ := mem_entities.1 he
    rw [Entity.references, Entity.ofDefinition, MemberKind.references_mapReferences] at hmem
    obtain ⟨r, hr, rfl⟩ := List.mem_map.1 hmem
    exact exists_entity_iff.2 (h hp m hm (refers_iff.2 ⟨r, hr, rfl, rfl⟩))

lemma declares_absolute_iff {parent name reference : String} (hn : isValid name) :
    c.Declares k (absolute (qualify parent name) reference) ↔
      if reference.toList.head? = some '/' then c.Declares k reference
      else c.Declares k (qualify parent name ++ "/" ++ reference) := by
  rw [absolute]
  split
  · rfl
  · rw [qualify_eq_append (qualify_ne_slash hn parent)]

namespace WellFormed

lemma owns_ownMemberNames (h : c.WellFormed) (k : MemberKind) :
    c.Owns (SystemDefinition.ownMemberNames k) 1 := by
  intro a d ha hp
  have hq := qualify_ofSegments (ValidSegments.append_singleton.1 ha).1 d.head.name
  constructor
  · have hn := (h.members hp k).map (qualify_injective (qualify (ofSegments a) d.head.name))
    rwa [List.map_map] at hn
  · intro name hname
    obtain ⟨m, hm, rfl⟩ := List.mem_map.1 hname
    refine ⟨[m.head.name], rfl, ?_, ?_⟩
    · exact ValidSegments.append_singleton.2 ⟨ha, isValid_iff.2 (h.memberName hp m hm)⟩
    · rw [hq, qualify_ofSegments ha]

lemma owns_ownName (c : CatalogDefinition) : c.Owns SystemDefinition.ownName 0 := by
  intro a d ha hp
  have hq := qualify_ofSegments (ValidSegments.append_singleton.1 ha).1 d.head.name
  refine ⟨List.nodup_singleton _, fun name hname => ⟨[], rfl, by simpa using ha, ?_⟩⟩
  rw [List.mem_singleton.1 hname, hq, List.append_nil]

lemma distinct_entities (h : c.WellFormed) (k : MemberKind) :
    Table.Distinct (c.entities k) := by
  refine Table.distinct_iff.2 ⟨?_, fun a ha b hb key hka hkb => ?_⟩
  · change ((c.entities k).map Entity.qualifiedName).Nodup
    rw [map_entities]
    exact h.nodup_names (SystemDefinition.collects_memberNames k) (h.owns_ownMemberNames k)
  · exact h.keys (claims_member_iff.2 ⟨a, ha, rfl, hka⟩) (claims_member_iff.2 ⟨b, hb, rfl, hkb⟩)

lemma distinct_nodes (h : c.WellFormed) : Table.Distinct c.nodes := by
  refine Table.distinct_iff.2 ⟨?_, fun a ha b hb key hka hkb => ?_⟩
  · change (c.nodes.map SpaceSystem.qualifiedName).Nodup
    rw [map_nodes, List.nodup_cons]
    have hc := SystemDefinition.collects_systemNames
    exact ⟨fun hn => h.ne_empty_of_mem hc (owns_ownName c) hn rfl,
      h.nodup_names hc (owns_ownName c)⟩
  · exact h.keys (claims_system_iff.2 ⟨a, ha, rfl, hka⟩) (claims_system_iff.2 ⟨b, hb, rfl, hkb⟩)

theorem passes (h : c.WellFormed) : c.Passes where
  valid := valid_iff.2 fun hp =>
    ⟨h.isValid_of_places hp, fun _ m hm => isValid_iff.2 (h.memberName hp m hm)⟩
  entities := h.distinct_entities
  nodes := h.distinct_nodes
  references := references_iff.2 fun hp _ m hm _ _ hr =>
    (declares_absolute_iff (h.isValid_of_places hp)).2 (h.references hp m hm hr)

end WellFormed

namespace Passes

lemma nodup_members (h : c.Passes) {parent : String} {d : SystemDefinition}
    (hp : c.Places parent d) (k : MemberKind) : ((d.members k).map (·.head.name)).Nodup := by
  have hn : ((c.entities k).map Entity.qualifiedName).Nodup := (h.entities k).nodup_names
  rw [map_entities] at hn
  have hown := ((SystemDefinition.collects_memberNames k).nodup_of_places hn hp).of_append_left
  refine List.Nodup.of_map (qualify (qualify parent d.head.name)) ?_
  rwa [List.map_map]

/-- Siblings have different names if no name is collected from two of them. -/
lemma nodup_siblings {parent : String} {ds : List SystemDefinition}
    (hn : (ds.flatMap (SystemDefinition.systemNames parent)).Nodup) :
    (ds.map (·.head.name)).Nodup := by
  have hmem : ∀ d, qualify parent d.head.name ∈ SystemDefinition.systemNames parent d := fun d =>
    (SystemDefinition.collects_systemNames parent d).mem_iff.2 List.mem_cons_self
  refine List.pairwise_map.2 ((List.nodup_flatMap.1 hn).2.imp ?_)
  intro d e hde hname
  exact hde (hmem d) (hname ▸ hmem e)

lemma nodup_systemNames (h : c.Passes) :
    (c.systems.flatMap (SystemDefinition.systemNames "")).Nodup := by
  have hn : (c.nodes.map SpaceSystem.qualifiedName).Nodup := h.nodes.nodup_names
  rw [map_nodes] at hn
  exact (List.nodup_cons.1 hn).2

theorem wellFormed (h : c.Passes) : c.WellFormed where
  systemName hp := isValid_iff.1 (valid_iff.1 h.valid hp).1
  memberName hp _ m hm := isValid_iff.1 ((valid_iff.1 h.valid hp).2 _ m hm)
  top := nodup_siblings h.nodup_systemNames
  systems hp := nodup_siblings
    (SystemDefinition.collects_systemNames.nodup_of_places h.nodup_systemNames hp).of_append_right
  members := h.nodup_members
  keys := by
    intro kind a b key ha hb
    cases kind with
    | spaceSystem =>
      obtain ⟨s, hs, rfl, hks⟩ := claims_system_iff.1 ha
      obtain ⟨t, ht, rfl, hkt⟩ := claims_system_iff.1 hb
      exact (Table.distinct_iff.1 h.nodes).2 s hs t ht key hks hkt
    | member k =>
      obtain ⟨e, he, rfl, hke⟩ := claims_member_iff.1 ha
      obtain ⟨f, hf, rfl, hkf⟩ := claims_member_iff.1 hb
      exact (Table.distinct_iff.1 (h.entities k)).2 e he f hf key hke hkf
  references hp _ m hm _ _ hr :=
    (declares_absolute_iff (valid_iff.1 h.valid hp).1).1 (references_iff.1 h.references hp m hm hr)

end Passes

lemma passes_iff_wellFormed : c.Passes ↔ c.WellFormed := ⟨Passes.wellFormed, WellFormed.passes⟩

instance : Decidable c.WellFormed := decidable_of_iff _ passes_iff_wellFormed

/-- A database can be built from a catalog just if the catalog is well-formed. -/
theorem exists_build_iff_wellFormed (c : CatalogDefinition) :
    (∃ db, Database.build c = .ok db) ↔ c.WellFormed :=
  exists_build_iff_passes.trans passes_iff_wellFormed

/-- The parameter refers to the type beside it by its name alone, and the algorithm to the parameter
by its qualified name. -/
example : WellFormed ⟨"near", none, [⟨⟨"S", none, none, []⟩, none,
    [⟨⟨"T", none, none, []⟩, ⟨none, .boolean⟩⟩], [⟨⟨"P", none, none, []⟩, ⟨some "T", none⟩⟩], [],
    [], [⟨⟨"A", none, none, []⟩, ⟨.global, none, none, ["/S/P"], []⟩⟩], []⟩]⟩ := by
  decide +kernel

/-- Two space systems of one name stand side by side. -/
example : ¬WellFormed ⟨"twins", none, [⟨⟨"S", none, none, []⟩, none, [], [], [], [], [], []⟩,
    ⟨⟨"S", none, none, []⟩, none, [], [], [], [], [], []⟩]⟩ := by
  decide +kernel

end CatalogDefinition

namespace Database

variable {c : CatalogDefinition} {db : Database}

lemma wellFormed_of_build (hb : build c = .ok db) : c.WellFormed :=
  (CatalogDefinition.exists_build_iff_passes.1 ⟨db, hb⟩).wellFormed

lemma nodup_children (hb : build c = .ok db) {s : SpaceSystem} (hs : s ∈ db.systems.sorted) :
    s.systems.Nodup := by
  have hw := wellFormed_of_build hb
  have hmap : ∀ {parent : String} {ds : List SystemDefinition}, (ds.map (·.head.name)).Nodup →
      (ds.map fun e => Name.qualify parent e.head.name).Nodup := by
    intro parent ds hn
    have hq := hn.map (Name.qualify_injective parent)
    rwa [List.map_map] at hq
  rcases (holds_of_build hb).mem_systems.1 hs with rfl | ⟨parent, e, hp, rfl⟩
  · exact hmap hw.top
  · exact hmap (hw.systems hp)

end Database

end MissionCatalog
