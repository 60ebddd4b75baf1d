import MissionCatalog.Database.Format
import MissionCatalog.Proofs.Database.Ancestry
import MissionCatalog.Proofs.Definition.Position

/-!
# A database mirrors its catalog

Building a database loses nothing and adds nothing but the root. Every definition, wherever it stands,
becomes one row of the table of its kind, named after the way to it; and the tree, which is held a
second time in the nodes, lists just what the tables hold.
-/
namespace MissionCatalog

open Name
open SystemDefinition (Position MemberPosition members_node)

/-- The entity is what the catalog says in the position, with references made absolute. -/
structure Entity.Renders {k : MemberKind} {c : CatalogDefinition} (e : Entity k)
    (p : MemberPosition c.systems k) : Prop where
  qualifiedName : e.qualifiedName = ofSegments (p.system.path ++ [p.definition.head.name])
  owner : e.owner = ofSegments p.system.path
  head : e.head = p.definition.head
  details : e.details = k.mapReferences (absolute (ofSegments p.system.path)) p.definition.details

/-- The space system is what the catalog says in the position, its lists in the same order. -/
structure SpaceSystem.Renders {c : CatalogDefinition} (s : SpaceSystem) (p : Position c.systems) :
    Prop where
  qualifiedName : s.qualifiedName = ofSegments p.path
  parent : s.parent = some (ofSegments p.around)
  head : s.head = p.definition.head
  version : s.version = p.definition.version
  systems : s.systems = p.definition.systems.map fun d => ofSegments (p.path ++ [d.head.name])
  members : ∀ k, s.members k =
    (p.definition.members k).map fun m => ofSegments (p.path ++ [m.head.name])

namespace Database

/-- The database holds what the catalog defines, and the root above it. -/
structure Mirrors (db : Database) (c : CatalogDefinition) : Prop where
  members : ∀ k, ((db.table k).sorted.map Entity.qualifiedName).Nodup ∧
    ∃ row : MemberPosition c.systems k → {e // e ∈ (db.table k).sorted},
      row.Bijective ∧ ∀ p, (row p).val.Renders p
  systems : (db.systems.sorted.map SpaceSystem.qualifiedName).Nodup ∧
    ∃ node : Position c.systems → {s // s ∈ db.systems.sorted ∧ s ≠ db.root},
      node.Bijective ∧ ∀ p, (node p).val.Renders p
  root : db.root ∈ db.systems.sorted ∧
    db.root = SpaceSystem.root (c.systems.map fun d => ofSegments [d.head.name])
  /-- A node lists the members that name it as their owner. -/
  lists : ∀ s ∈ db.systems.sorted, ∀ k, (s.members k).Nodup ∧
    ∀ name, name ∈ s.members k ↔
      ∃ e ∈ (db.table k).sorted, e.owner = s.qualifiedName ∧ e.qualifiedName = name
  /-- A node lists the space systems that name it as their parent. -/
  children : ∀ s ∈ db.systems.sorted, s.systems.Nodup ∧
    ∀ name, name ∈ s.systems ↔
      ∃ t ∈ db.systems.sorted, t.parent = some s.qualifiedName ∧ t.qualifiedName = name
  /-- The way up from every space system ends at the root, the only one without a parent. -/
  rooted : ∀ s ∈ db.systems.sorted, db.StandsIn s db.root ∧ (s.parent = none ↔ s = db.root)
  counts : db.countFields =
    [("parameterCount", .ofNat (Nat.card (MemberPosition c.systems .parameter))),
      ("containerCount", .ofNat (Nat.card (MemberPosition c.systems .container))),
      ("commandCount", .ofNat (Nat.card (MemberPosition c.systems .command))),
      ("algorithmCount", .ofNat (Nat.card (MemberPosition c.systems .algorithm))),
      ("parameterTypeCount", .ofNat (Nat.card (MemberPosition c.systems .parameterType)))]

variable {db : Database} {c : CatalogDefinition} {k : MemberKind}

namespace Holds

lemma renders_ofDefinition (hw : c.WellFormed) (p : MemberPosition c.systems k) :
    (Entity.ofDefinition (ofSegments p.system.path) p.definition).Renders p where
  qualifiedName := qualify_ofSegments (hw.places p.system).2 _
  owner := rfl
  head := rfl
  details := rfl

lemma renders_node (hw : c.WellFormed) (p : Position c.systems) :
    (p.definition.node (ofSegments p.around)).Renders p := by
  have hpath : qualify (ofSegments p.around) p.definition.head.name = ofSegments p.path :=
    qualify_ofSegments (hw.validSegments_around p) _
  have hbelow : qualify (ofSegments p.path) = fun name => ofSegments (p.path ++ [name]) :=
    funext (qualify_ofSegments (hw.places p).2)
  refine ⟨hpath, rfl, rfl, rfl, ?_, fun k => ?_⟩
  · simp only [SystemDefinition.node, hpath, hbelow]
  · simp only [members_node, hpath, hbelow]

lemma exists_row (h : db.Holds c) (hw : c.WellFormed) (k : MemberKind) :
    ∃ row : MemberPosition c.systems k → {e // e ∈ (db.table k).sorted},
      row.Bijective ∧ ∀ p, (row p).val.Renders p := by
  have hmem : ∀ p : MemberPosition c.systems k,
      Entity.ofDefinition (ofSegments p.system.path) p.definition ∈ (db.table k).sorted := by
    intro p
    refine h.mem_sorted.2 ⟨_, _, (hw.places p.system).1, p.definition, List.get_mem _ _, ?_⟩
    rw [qualify_ofSegments (hw.validSegments_around p.system)]
    rfl
  refine ⟨fun p => ⟨_, hmem p⟩, ⟨fun p q hpq => ?_, ?_⟩, renders_ofDefinition hw⟩
  · have hname := congrArg (fun e => e.val.qualifiedName) hpq
    simp only [(renders_ofDefinition hw _).qualifiedName] at hname
    have hvalid : ∀ p : MemberPosition c.systems k, ValidSegments p.path := by
      intro p
      have hm := List.get_mem (p.system.definition.members k) p.index
      have hn := isValid_iff.2 (hw.memberName (hw.places p.system).1 _ hm)
      exact ValidSegments.append_singleton.2 ⟨(hw.places p.system).2, hn⟩
    exact hw.memberPath_injective ((ofSegments_inj (hvalid p) (hvalid q)).1 hname)
  · rintro ⟨e, he⟩
    obtain ⟨parent, d, hp, m, hm, rfl⟩ := h.mem_sorted.1 he
    obtain ⟨p, rfl, rfl⟩ := hw.exists_position hp
    obtain ⟨i, rfl⟩ := List.mem_iff_get.1 hm
    have hq := qualify_ofSegments (hw.validSegments_around p) p.definition.head.name
    exact ⟨⟨p, i⟩, Subtype.ext (congrArg (Entity.ofDefinition · _) hq.symm)⟩

lemma exists_node (h : db.Holds c) (hw : c.WellFormed) :
    ∃ node : Position c.systems → {s // s ∈ db.systems.sorted ∧ s ≠ db.root},
      node.Bijective ∧ ∀ p, (node p).val.Renders p := by
  have hmem : ∀ p : Position c.systems, p.definition.node (ofSegments p.around) ∈ db.systems.sorted ∧
      p.definition.node (ofSegments p.around) ≠ db.root := by
    intro p
    refine ⟨h.node_mem (hw.places p).1, fun he => ?_⟩
    have hparent := congrArg SpaceSystem.parent he
    simp [h.parent_root, SystemDefinition.node] at hparent
  refine ⟨fun p => ⟨_, hmem p⟩, ⟨fun p q hpq => ?_, ?_⟩, renders_node hw⟩
  · have hname := congrArg (fun s => s.val.qualifiedName) hpq
    simp only [(renders_node hw _).qualifiedName] at hname
    exact hw.path_injective ((ofSegments_inj (hw.places p).2 (hw.places q).2).1 hname)
  · rintro ⟨s, hs, hne⟩
    rcases h.mem_systems.1 hs with rfl | ⟨parent, d, hp, rfl⟩
    · exact absurd h.root.symm hne
    · obtain ⟨p, rfl, rfl⟩ := hw.exists_position hp
      exact ⟨p, rfl⟩

lemma mem_members_iff (h : db.Holds c) {s : SpaceSystem} (hs : s ∈ db.systems.sorted)
    {name : String} : name ∈ s.members k ↔
      ∃ e ∈ (db.table k).sorted, e.owner = s.qualifiedName ∧ e.qualifiedName = name := by
  constructor
  · intro hn
    rcases h.mem_systems.1 hs with rfl | ⟨parent, d, hp, rfl⟩
    · cases k <;> exact absurd hn List.not_mem_nil
    · rw [members_node] at hn
      obtain ⟨m, hm, rfl⟩ := List.mem_map.1 hn
      exact ⟨_, h.mem_sorted.2 ⟨parent, d, hp, m, hm, rfl⟩, rfl, rfl⟩
  · rintro ⟨e, he, howner, rfl⟩
    obtain ⟨parent, d, hp, m, hm, rfl⟩ := h.mem_sorted.1 he
    obtain rfl : d.node parent = s := h.system_ext (h.node_mem hp) hs howner
    rw [members_node]
    exact List.mem_map_of_mem hm

lemma nodup_members (hw : c.WellFormed) (h : db.Holds c) {s : SpaceSystem}
    (hs : s ∈ db.systems.sorted) (k : MemberKind) : (s.members k).Nodup := by
  rcases h.mem_systems.1 hs with rfl | ⟨parent, d, hp, rfl⟩
  · cases k <;> exact List.nodup_nil
  · rw [members_node]
    have hn := (hw.members hp k).map (qualify_injective (qualify parent d.head.name))
    rwa [List.map_map] at hn

lemma parent_eq_none_iff (h : db.Holds c) {s : SpaceSystem} (hs : s ∈ db.systems.sorted) :
    s.parent = none ↔ s = db.root := by
  rcases h.mem_systems.1 hs with rfl | ⟨parent, d, hp, rfl⟩
  · exact iff_of_true rfl h.root.symm
  · refine iff_of_false (by simp [SystemDefinition.node]) fun he => ?_
    have hparent := congrArg SpaceSystem.parent he
    simp [h.parent_root, SystemDefinition.node] at hparent

lemma card_memberPosition (h : db.Holds c) (hw : c.WellFormed) (k : MemberKind) :
    Nat.card (MemberPosition c.systems k) = (db.table k).size := by
  classical
  obtain ⟨row, hrow, -⟩ := h.exists_row hw k
  have hnodup : (db.table k).sorted.Nodup := .of_map _ (h.consistent k).nodup_names
  rw [Nat.card_eq_of_bijective row hrow, ← Nat.card_congr hnodup.getEquiv, Nat.card_fin,
    Table.length_sorted]

end Holds

/-- A built database mirrors the catalog that it was built from. -/
theorem mirrors_of_build (hb : build c = .ok db) : db.Mirrors c := by
  have h := holds_of_build hb
  have hw := wellFormed_of_build hb
  have hroot : c.root = SpaceSystem.root (c.systems.map fun d => ofSegments [d.head.name]) := by
    have hempty : ValidSegments [] := by simp [ValidSegments]
    have hname : qualify "" = fun name => ofSegments [name] := funext (qualify_ofSegments hempty)
    rw [CatalogDefinition.root, hname]
  refine
    { members := fun k => ⟨(h.consistent k).nodup_names, h.exists_row hw k⟩
      systems := ⟨h.systemsConsistent.nodup_names, h.exists_node hw⟩
      root := ⟨h.root_mem, h.root.trans hroot⟩
      lists := fun s hs k => ⟨h.nodup_members hw hs k, fun _ => h.mem_members_iff hs⟩
      children := fun s hs => ⟨nodup_children hb hs, fun _ => h.mem_children_iff hs⟩
      rooted := fun s hs => ⟨h.standsIn_root hs, h.parent_eq_none_iff hs⟩
      counts := ?_ }
  simp only [h.card_memberPosition hw, countFields]

def nestedCatalog : CatalogDefinition where
  name := "nested"
  version := none
  systems := [⟨⟨"A", none, none, []⟩, none, [], [], [], [], [], [{
    head := ⟨"B", none, none, []⟩
    version := none
    parameterTypes := [⟨⟨"T", none, none, []⟩, ⟨none, .boolean⟩⟩]
    parameters := [⟨⟨"P", none, none, []⟩, ⟨some "T", none⟩⟩]
    containers := []
    commands := []
    algorithms := []
    systems := [] }]⟩]

theorem mirrors_of_build_nested : ∃ db, build nestedCatalog = .ok db ∧ db.Mirrors nestedCatalog ∧
    ∃ p ∈ (db.table .parameter).sorted, p.qualifiedName = "/A/B/P" ∧ p.owner = "/A/B" ∧
      p.details.type = some "/A/B/T" := by
  obtain ⟨db, hb⟩ := CatalogDefinition.exists_build_iff_passes.2
    (show nestedCatalog.Passes by decide +kernel)
  have hm := mirrors_of_build hb
  obtain ⟨-, row, -, hrow⟩ := hm.members .parameter
  have hp := hrow ⟨.inside ⟨0, by decide⟩ (.here ⟨0, by decide⟩), ⟨0, by decide⟩⟩
  refine ⟨db, hb, hm, _, (row _).property, hp.qualifiedName.trans ?_, hp.owner.trans ?_, ?_⟩
  · decide +kernel
  · decide +kernel
  · rw [hp.details]
    decide +kernel

end Database

end MissionCatalog
