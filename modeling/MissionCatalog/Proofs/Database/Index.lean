import MissionCatalog.Proofs.Database.Acceptance

/-!
# Exact look-ups

In a built database an entity can be looked up under its own key and under its aliases with a
namespace, and under nothing else. No key leads to two entities, and the tables list each entity once,
in the order of the names.
-/
namespace MissionCatalog

/-- The member has the key by its place and name, or as an alias. -/
def Entity.IsDeclaredUnder {k : MemberKind} (e : Entity k) (key : Key) : Prop :=
  e.head.Claims e.owner key

def SpaceSystem.IsDeclaredUnder (s : SpaceSystem) (key : Key) : Prop :=
  ∃ parent ∈ s.parent, s.head.Claims parent key

/-- The keys of the entities in the table are just those that they are declared under. -/
def Table.KeyedBy {α : Type} [Declared α] (t : Table α) (declared : α → Key → Prop) : Prop :=
  ∀ e ∈ t.sorted, ∀ key, key ∈ Declared.keys e ↔ declared e key

/-- The table gives back the entities: each under its name and the keys it is declared under, and in a
list by their names. -/
structure Table.Exact {α : Type} [Declared α] (t : Table α) (entities : List α)
    (declared : α → Key → Prop) : Prop where
  byKey : ∀ ns name e, t.getById? ⟨name, some ns⟩ = some e ↔ e ∈ entities ∧ declared e ⟨ns, name⟩
  /-- At most one entity is declared under a key. -/
  unique : ∀ key, ∀ a ∈ entities, ∀ b ∈ entities, declared a key → declared b key → a = b
  /-- The index has the keys of the entities, and no others. -/
  indexed : ∀ key name, t.byKey.get? key = some name ↔
    ∃ e ∈ entities, declared e key ∧ Declared.qualifiedName e = name
  byName : ∀ name e, t.getById? ⟨name, none⟩ = some e ↔
    e ∈ entities ∧ Declared.qualifiedName e = name
  listed : t.sorted.Perm entities
  ascending : t.sorted.Pairwise fun a b => Declared.qualifiedName a < Declared.qualifiedName b

lemma Table.Consistent.exact {α : Type} [Declared α] {t : Table α} {entities : List α}
    {declared : α → Key → Prop} (h : t.Consistent) (hp : t.sorted.Perm entities)
    (hk : t.KeyedBy declared) : t.Exact entities declared where
  byKey ns name e := by
    have hget : t.getById? ⟨name, some ns⟩ = t.getByKey? ⟨ns, name⟩ := rfl
    rw [hget, h.getByKey?_eq_some_iff, hp.mem_iff]
    exact and_congr_right fun he => hk e (hp.mem_iff.2 he) ⟨ns, name⟩
  unique key a ha b hb hka hkb := by
    rw [← hp.mem_iff] at ha hb
    exact h.eq_of_conflict ha hb (.inr ⟨key, (hk a ha key).2 hka, (hk b hb key).2 hkb⟩)
  indexed key name := by
    rw [h.indexed]
    refine exists_congr fun e => ?_
    rw [hp.mem_iff]
    exact and_congr_right fun he => and_congr_left fun _ => hk e (hp.mem_iff.2 he) key
  byName name e := by
    rw [← hp.mem_iff]
    exact h.get?_eq_some_iff
  listed := hp
  ascending := h.increasing_sorted

namespace Database

variable {db : Database} {c : CatalogDefinition}

namespace Holds

lemma keyedBy_table (k : MemberKind) : (db.table k).KeyedBy Entity.IsDeclaredUnder :=
  fun _ _ _ => Entity.mem_keys

lemma keyedBy_systems (h : db.Holds c) : db.systems.KeyedBy SpaceSystem.IsDeclaredUnder := by
  intro s hs key
  rcases h.mem_systems.1 hs with rfl | ⟨parent, d, -, rfl⟩
  · have hparent : c.root.parent = none := rfl
    have hkeys : Declared.keys c.root = [] := rfl
    simp [SpaceSystem.IsDeclaredUnder, hparent, hkeys]
  · have hparent : (d.node parent).parent = some parent := rfl
    simp [SpaceSystem.IsDeclaredUnder, hparent, SpaceSystem.mem_keys hparent]

lemma exact_table (h : db.Holds c) (k : MemberKind) :
    (db.table k).Exact (c.entities k) Entity.IsDeclaredUnder :=
  (h.consistent k).exact (h.sorted_perm k) (keyedBy_table k)

lemma exact_systems (h : db.Holds c) : db.systems.Exact c.nodes SpaceSystem.IsDeclaredUnder :=
  h.systemsConsistent.exact h.systems_perm h.keyedBy_systems

lemma getById?_eq_root_iff (h : db.Holds c) {id : ObjectId} :
    db.systems.getById? id = some db.root ↔ id = ⟨"", none⟩ := by
  have hparent : db.root.parent = none := by rw [h.root]; rfl
  have hname : Declared.qualifiedName db.root = "" := by rw [h.root]; rfl
  obtain ⟨name, _ | ns⟩ := id
  · have hmem : db.root ∈ c.nodes := h.root ▸ List.mem_cons_self
    rw [h.exact_systems.byName]
    simp [hmem, hname, eq_comm]
  · rw [h.exact_systems.byKey]
    simp [SpaceSystem.IsDeclaredUnder, hparent]

end Holds

/-- The tables of a built database are exact, with their indices. Of the root there is nothing but its
empty name to look it up by. -/
theorem tables_exact (hb : build c = .ok db) :
    (∀ k, (db.table k).Exact (c.entities k) Entity.IsDeclaredUnder) ∧
      db.systems.Exact c.nodes SpaceSystem.IsDeclaredUnder ∧
      ∀ id, db.systems.getById? id = some db.root ↔ id = ⟨"", none⟩ := by
  have h := holds_of_build hb
  exact ⟨h.exact_table, h.exact_systems, fun id => h.getById?_eq_root_iff⟩

end Database

/-- `P` repeats its own key and an alias, which the container `C` has as well. -/
def crossedCatalog : CatalogDefinition where
  name := "crossed"
  version := none
  systems := [{
    head := ⟨"S", none, none, []⟩
    version := none
    parameterTypes := []
    parameters := [⟨⟨"P", none, none,
      [⟨"P", some "/S"⟩, ⟨"X", some "ops"⟩, ⟨"X", some "ops"⟩, ⟨"N", none⟩]⟩, ⟨none, none⟩⟩]
    containers := [⟨⟨"C", none, none, [⟨"X", some "ops"⟩]⟩, ⟨none, false, none, []⟩⟩]
    commands := []
    algorithms := []
    systems := [] }]

namespace Database

theorem tables_exact_crossed : ∃ db, build crossedCatalog = .ok db ∧
    (∃ p, p.qualifiedName = "/S/P" ∧
      (db.table .parameter).getById? ⟨"X", some "ops"⟩ = some p ∧
      (db.table .parameter).getById? ⟨"P", some "/S"⟩ = some p ∧
      (db.table .parameter).sorted = [p] ∧
      ∀ q, (db.table .parameter).getById? ⟨"N", none⟩ ≠ some q) ∧
    (∃ d, d.qualifiedName = "/S/C" ∧
      (db.table .container).getById? ⟨"X", some "ops"⟩ = some d) ∧
    db.systems.getById? ⟨"", some "/"⟩ ≠ some db.root := by
  obtain ⟨db, hb⟩ := CatalogDefinition.exists_build_iff_passes.2
    (show crossedCatalog.Passes by decide +kernel)
  obtain ⟨p, hp, hpname, hpowner, hpsegment, hpalias⟩ : ∃ p,
      crossedCatalog.entities .parameter = [p] ∧ p.qualifiedName = "/S/P" ∧ p.owner = "/S" ∧
        p.head.name = "P" ∧ ⟨"X", some "ops"⟩ ∈ p.head.aliases := ⟨_, rfl, by decide +kernel⟩
  obtain ⟨d, hd, hdname, hdalias⟩ : ∃ d ∈ crossedCatalog.entities .container,
      d.qualifiedName = "/S/C" ∧ ⟨"X", some "ops"⟩ ∈ d.head.aliases := by decide +kernel
  obtain ⟨hmembers, -, hroot⟩ := tables_exact hb
  have hparameters := hmembers .parameter
  rw [hp] at hparameters
  refine ⟨db, hb, ⟨p, hpname, ?_, ?_, ?_, fun q hq => ?_⟩, ⟨d, hdname, ?_⟩, fun h => ?_⟩
  · exact (hparameters.byKey _ _ _).2 ⟨List.mem_singleton.2 rfl, .inr hpalias⟩
  · exact (hparameters.byKey _ _ _).2 ⟨List.mem_singleton.2 rfl,
      .inl ⟨hpsegment.symm, by rw [hpowner]; rfl⟩⟩
  · exact List.perm_singleton.1 hparameters.listed
  · obtain ⟨hmem, hname⟩ := (hparameters.byName _ _).1 hq
    obtain rfl := List.mem_singleton.1 hmem
    exact absurd (hpname.symm.trans hname) (by decide)
  · exact ((hmembers .container).byKey _ _ _).2 ⟨hd, .inr hdalias⟩
  · exact absurd ((hroot _).1 h) (by decide)

end Database

end MissionCatalog
