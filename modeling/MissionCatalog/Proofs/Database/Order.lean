import MissionCatalog.Resolve
import MissionCatalog.Proofs.Database.Acceptance
import MissionCatalog.Proofs.Definition.Order

/-!
# What databases of reordered catalogs have in common

The tables of a database are sorted, so the order of the definitions is kept in the lists of its nodes
alone. Apart from these, reordered catalogs give one database: its tables hold and find the same, and
its nodes are the same when their lists are put in ascending order.
-/
namespace MissionCatalog

namespace SpaceSystem

/-- The space system with all its lists in ascending order. -/
def ordered (s : SpaceSystem) : SpaceSystem where
  parent := s.parent
  head := s.head
  version := s.version
  systems := s.systems.mergeSort
  parameterTypes := s.parameterTypes.mergeSort
  parameters := s.parameters.mergeSort
  containers := s.containers.mergeSort
  commands := s.commands.mergeSort
  algorithms := s.algorithms.mergeSort

lemma ordered_eq_of_perm {s t : SpaceSystem} (parent : s.parent = t.parent) (head : s.head = t.head)
    (version : s.version = t.version) (systems : s.systems.Perm t.systems)
    (members : ∀ k, (s.members k).Perm (t.members k)) : s.ordered = t.ordered := by
  have hsystems := mergeSort_eq_of_perm systems
  have htypes := mergeSort_eq_of_perm (members .parameterType)
  have hparameters := mergeSort_eq_of_perm (members .parameter)
  have hcontainers := mergeSort_eq_of_perm (members .container)
  have hcommands := mergeSort_eq_of_perm (members .command)
  have halgorithms := mergeSort_eq_of_perm (members .algorithm)
  simp only [SpaceSystem.members] at htypes hparameters hcontainers hcommands halgorithms
  simp only [ordered, parent, head, version, hsystems, htypes, hparameters, hcontainers, hcommands,
    halgorithms]

end SpaceSystem

def Table.ordered (t : Table SpaceSystem) : Table SpaceSystem :=
  ⟨t.byName.map SpaceSystem.ordered, t.byKey⟩

namespace Table

variable {t : Table SpaceSystem}

lemma sorted_ordered (t : Table SpaceSystem) :
    t.ordered.sorted = t.sorted.map SpaceSystem.ordered := by
  simp [ordered, sorted, Directory.values, Directory.map]

/-- Ordering the lists changes neither names nor keys, so the same nodes are found. -/
lemma get?_ordered (t : Table SpaceSystem) (name : String) :
    t.ordered.get? name = (t.get? name).map SpaceSystem.ordered := Directory.get?_map ..

lemma getByKey?_ordered (t : Table SpaceSystem) (key : Key) :
    t.ordered.getByKey? key = (t.getByKey? key).map SpaceSystem.ordered := by
  simp only [getByKey?, ordered, Option.map_bind, Function.comp_def, ← Directory.get?_map]

lemma Consistent.ordered (h : t.Consistent) : t.ordered.Consistent where
  ascending := List.pairwise_map.2 h.ascending
  named entry hentry := by
    obtain ⟨other, hother, rfl⟩ := List.mem_map.1 hentry
    exact h.named other hother
  indexed key name := by
    rw [sorted_ordered]
    simp only [List.mem_map, exists_exists_and_eq_and]
    exact h.indexed key name

end Table

lemma SystemDefinition.Reordered.ordered_node {d e : SystemDefinition} (h : d.Reordered e)
    (parent : String) : (d.node parent).ordered = (e.node parent).ordered := by
  refine SpaceSystem.ordered_eq_of_perm rfl h.head_eq h.version_eq ?_ fun k => ?_
  · have hperm := h.systems.map_head_perm fun head =>
      Name.qualify (Name.qualify parent d.head.name) head.name
    simpa only [SystemDefinition.node, h.head_eq] using hperm
  · rw [SystemDefinition.members_node, SystemDefinition.members_node, h.head_eq]
    exact (h.members_perm k).map _

lemma CatalogDefinition.Reordered.ordered_root {c d : CatalogDefinition} (h : c.Reordered d) :
    c.root.ordered = d.root.ordered := by
  refine SpaceSystem.ordered_eq_of_perm rfl rfl rfl ?_ fun k => .refl _
  exact h.systems.map_head_perm fun head => Name.qualify "" head.name

namespace Database

/-- The databases hold the same, in orders that may differ. -/
structure SameContents (a b : Database) : Prop where
  name : a.name = b.name
  version : a.version = b.version
  root : a.root.ordered = b.root.ordered
  members : ∀ {k} (e : Entity k), e ∈ (a.table k).sorted ↔ e ∈ (b.table k).sorted
  systems : ∀ s, s ∈ a.systems.ordered.sorted ↔ s ∈ b.systems.ordered.sorted

variable {a b : Database} {c d : CatalogDefinition}

namespace Holds

lemma mem_sorted_of_reordered (ha : a.Holds c) (hb : b.Holds d) (h : c.Reordered d) {k : MemberKind}
    {e : Entity k} (he : e ∈ (a.table k).sorted) : e ∈ (b.table k).sorted := by
  obtain ⟨parent, f, hp, m, hm, rfl⟩ := ha.mem_sorted.1 he
  obtain ⟨g, hg, hfg⟩ := h.exists_places hp
  rw [hfg.head_eq]
  exact hb.mem_sorted.2 ⟨parent, g, hg, m, (hfg.members_perm k).mem_iff.1 hm, rfl⟩

lemma mem_systems_of_reordered (ha : a.Holds c) (hb : b.Holds d) (h : c.Reordered d)
    {s : SpaceSystem} (hs : s ∈ a.systems.ordered.sorted) : s ∈ b.systems.ordered.sorted := by
  rw [Table.sorted_ordered] at hs ⊢
  obtain ⟨t, ht, rfl⟩ := List.mem_map.1 hs
  rcases ha.mem_systems.1 ht with rfl | ⟨parent, f, hp, rfl⟩
  · exact List.mem_map.2 ⟨d.root, hb.mem_systems.2 (.inl rfl), h.ordered_root.symm⟩
  · obtain ⟨g, hg, hfg⟩ := h.exists_places hp
    exact List.mem_map.2 ⟨g.node parent, hb.mem_systems.2 (.inr ⟨parent, g, hg, rfl⟩),
      (hfg.ordered_node parent).symm⟩

end Holds

namespace SameContents

theorem of_reordered (ha : build c = .ok a) (hb : build d = .ok b) (h : c.Reordered d) :
    a.SameContents b := by
  have hha := holds_of_build ha
  have hhb := holds_of_build hb
  obtain ⟨-, -, -, hname, hversion, -⟩ := build_eq_ok.1 ha
  obtain ⟨-, -, -, hname', hversion', -⟩ := build_eq_ok.1 hb
  exact
    { name := by rw [hname, hname', h.name]
      version := by rw [hversion, hversion', h.version]
      root := by rw [hha.root, hhb.root, h.ordered_root]
      members := fun _ => ⟨hha.mem_sorted_of_reordered hhb h, hhb.mem_sorted_of_reordered hha h.symm⟩
      systems := fun _ =>
        ⟨hha.mem_systems_of_reordered hhb h, hhb.mem_systems_of_reordered hha h.symm⟩ }

variable (h : a.SameContents b) (ha : a.Holds c) (hb : b.Holds d)

include h ha hb

lemma sorted_eq (k : MemberKind) : (a.table k).sorted = (b.table k).sorted :=
  (ha.consistent k).sorted_eq (hb.consistent k) h.members

lemma size_eq (k : MemberKind) : (a.table k).size = (b.table k).size := by
  rw [← Table.length_sorted, h.sorted_eq ha hb, Table.length_sorted]

lemma getByKey?_eq (k : MemberKind) : (a.table k).getByKey? = (b.table k).getByKey? :=
  (ha.consistent k).getByKey?_eq (hb.consistent k) h.members

lemma getById?_eq (k : MemberKind) : (a.table k).getById? = (b.table k).getById? := by
  have hget := (ha.consistent k).get?_eq (hb.consistent k) h.members
  have hkey := h.getByKey?_eq ha hb k
  funext id
  rw [Table.getById?, Table.getById?, hget, hkey]

lemma containersWith_eq : a.containersWith = b.containersWith := by
  have hget := (ha.consistent .container).get?_eq (hb.consistent .container) h.members
  funext entry
  rw [containersWith, containersWith, ha.users, hb.users, h.sorted_eq ha hb, hget]

lemma resolve_eq (k : MemberKind) : a.resolve k = b.resolve k := by
  have hkey := h.getByKey?_eq ha hb k
  funext path
  simp only [resolve, Table.resolve, Table.lookup?, hkey]

lemma resolveParameter_eq : a.resolveParameter = b.resolveParameter := by
  funext path
  rw [resolveParameter, resolveParameter, h.resolve_eq ha hb]

lemma map_system?_eq (name : String) :
    (a.system? name).map SpaceSystem.ordered = (b.system? name).map SpaceSystem.ordered := by
  have hget := ha.systemsConsistent.ordered.get?_eq hb.systemsConsistent.ordered h.systems
  have hname := congrFun hget name
  rwa [Table.get?_ordered, Table.get?_ordered] at hname

lemma map_getByKey?_eq (key : Key) : (a.systems.getByKey? key).map SpaceSystem.ordered =
    (b.systems.getByKey? key).map SpaceSystem.ordered := by
  have hget := ha.systemsConsistent.ordered.getByKey?_eq hb.systemsConsistent.ordered h.systems
  have hkey := congrFun hget key
  rwa [Table.getByKey?_ordered, Table.getByKey?_ordered] at hkey

lemma map_sorted_eq :
    a.systems.sorted.map SpaceSystem.ordered = b.systems.sorted.map SpaceSystem.ordered := by
  rw [← Table.sorted_ordered, ← Table.sorted_ordered]
  exact ha.systemsConsistent.ordered.sorted_eq hb.systemsConsistent.ordered h.systems

omit ha in
lemma ordered_eq {s t : SpaceSystem} (hs : s ∈ a.systems.sorted) (ht : t ∈ b.systems.sorted)
    (hname : s.qualifiedName = t.qualifiedName) : s.ordered = t.ordered := by
  have hmem := (h.systems s.ordered).1 (Table.sorted_ordered _ ▸ List.mem_map_of_mem hs)
  obtain ⟨u, hu, hus⟩ := List.mem_map.1 (Table.sorted_ordered _ ▸ hmem)
  have hut : u.qualifiedName = t.qualifiedName :=
    (congrArg SpaceSystem.qualifiedName hus).trans hname
  obtain rfl := hb.system_ext hu ht hut
  exact hus.symm

end SameContents

end Database

end MissionCatalog
