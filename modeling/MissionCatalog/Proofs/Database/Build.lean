import MissionCatalog.Database.Build
import MissionCatalog.Proofs.Table

/-!
# What a built database holds

`Places` says where the definitions of a catalog stand. A database that was built from the catalog
has a node for each of them, and in the table of each kind just the members that they declare,
without conflicts and under valid names.
-/
namespace MissionCatalog

/-- The definition `d` stands directly under the space system `parent`. -/
inductive CatalogDefinition.Places (c : CatalogDefinition) : String → SystemDefinition → Prop
  | top {d : SystemDefinition} (mem : d ∈ c.systems) : c.Places "" d
  | inside {parent : String} {d e : SystemDefinition} (above : c.Places parent d)
      (mem : e ∈ d.systems) : c.Places (Name.qualify parent d.head.name) e

namespace SystemDefinition

theorem induction_on_systems {P : SystemDefinition → Prop}
    (step : ∀ d : SystemDefinition, (∀ e ∈ d.systems, P e) → P d) (d : SystemDefinition) : P d := by
  induction h : sizeOf d using Nat.strong_induction_on generalizing d with
  | _ n ih =>
    refine step d fun e he => ih (sizeOf e) ?_ e rfl
    have hlt := List.sizeOf_lt_of_mem he
    cases d
    simp only [mk.sizeOf_spec] at h
    simp only at hlt
    omega

/-- The steps that a definition takes before its children. -/
def ownSteps (d : SystemDefinition) (parent : String) : List Step :=
  .enter d.head.name parent :: d.declarations (Name.qualify parent d.head.name)

lemma stepsOfList_eq (parent : String) (ds : List SystemDefinition) :
    stepsOfList parent ds = ds.flatMap (steps parent) := by
  induction ds with
  | nil => rfl
  | cons d ds ih => rw [stepsOfList, ih, List.flatMap_cons]

lemma steps_eq (d : SystemDefinition) (parent : String) :
    d.steps parent =
      d.ownSteps parent ++ d.systems.flatMap (steps (Name.qualify parent d.head.name)) := by
  cases d
  rw [steps, stepsOfList_eq]
  rfl

lemma nodesOfList_eq (parent : String) (ds : List SystemDefinition) :
    nodesOfList parent ds = ds.flatMap (nodes parent) := by
  induction ds with
  | nil => rfl
  | cons d ds ih => rw [nodesOfList, ih, List.flatMap_cons]

lemma nodes_eq (d : SystemDefinition) (parent : String) :
    d.nodes parent =
      d.systems.flatMap (nodes (Name.qualify parent d.head.name)) ++ [d.node parent] := by
  cases d
  rw [nodes, nodesOfList_eq]

@[simp] lemma qualifiedName_node (d : SystemDefinition) (parent : String) :
    (d.node parent).qualifiedName = Name.qualify parent d.head.name := rfl

lemma members_node (d : SystemDefinition) (parent : String) (k : MemberKind) :
    (d.node parent).members k =
      (d.members k).map fun m => Name.qualify (Name.qualify parent d.head.name) m.head.name := by
  cases k <;> rfl

lemma declare_mem_declarations {d : SystemDefinition} {qualified : String} {k : MemberKind}
    {e : Entity k} :
    .declare e ∈ d.declarations qualified ↔
      ∃ m ∈ d.members k, e = Entity.ofDefinition qualified m := by
  simp only [declarations, List.mem_flatMap, MemberKind.mem_all, true_and, List.mem_map]
  constructor
  · rintro ⟨l, m, hm, he⟩
    cases he
    exact ⟨m, hm, rfl⟩
  · rintro ⟨m, hm, rfl⟩
    exact ⟨k, m, hm, rfl⟩

end SystemDefinition

namespace CatalogDefinition

variable {c : CatalogDefinition}

/-- What is collected from a catalog, definition by definition and whatever stands first, comes from
the definitions in their places. -/
lemma mem_flatMap_iff_places {β : Type} {collect : String → SystemDefinition → List β}
    (own : String → SystemDefinition → List β) (h : ∀ parent d x, x ∈ collect parent d ↔
      x ∈ own parent d ∨ ∃ e ∈ d.systems, x ∈ collect (Name.qualify parent d.head.name) e) {x : β} :
    x ∈ c.systems.flatMap (collect "") ↔ ∃ parent d, c.Places parent d ∧ x ∈ own parent d := by
  constructor
  · have hdown : ∀ d parent, c.Places parent d → x ∈ collect parent d →
        ∃ parent d, c.Places parent d ∧ x ∈ own parent d := by
      intro d
      induction d using SystemDefinition.induction_on_systems with
      | step d ih =>
        intro parent hp hx
        rcases (h parent d x).1 hx with hx | ⟨e, he, hx⟩
        · exact ⟨parent, d, hp, hx⟩
        · exact ih e he _ (hp.inside he) hx
    intro hx
    obtain ⟨d, hd, hx⟩ := List.mem_flatMap.1 hx
    exact hdown d "" (.top hd) hx
  · rintro ⟨parent, d, hp, hx⟩
    have hup : ∀ x ∈ collect parent d, x ∈ c.systems.flatMap (collect "") := by
      clear hx
      induction hp with
      | top mem => exact fun x hx => List.mem_flatMap.2 ⟨_, mem, hx⟩
      | inside above mem ih => exact fun x hx => ih x ((h _ _ x).2 (.inr ⟨_, mem, hx⟩))
    exact hup x ((h parent d x).2 (.inl hx))

lemma mem_steps {s : Step} :
    s ∈ c.steps ↔ ∃ parent d, c.Places parent d ∧ s ∈ d.ownSteps parent := by
  rw [steps, SystemDefinition.stepsOfList_eq]
  refine mem_flatMap_iff_places (fun parent d => d.ownSteps parent) fun parent d x => ?_
  rw [SystemDefinition.steps_eq, List.mem_append, List.mem_flatMap]

lemma mem_nodes {s : SpaceSystem} :
    s ∈ c.nodes ↔ s = c.root ∨ ∃ parent d, c.Places parent d ∧ s = d.node parent := by
  rw [nodes, List.mem_cons, SystemDefinition.nodesOfList_eq,
    mem_flatMap_iff_places (fun parent d => [d.node parent])]
  · simp
  · intro parent d x
    rw [SystemDefinition.nodes_eq, List.mem_append, List.mem_flatMap, or_comm]

end CatalogDefinition

def Step.member? (k : MemberKind) : Step → Option (Entity k)
  | .enter .. => none
  | @Step.declare l e => if h : l = k then some (h ▸ e) else none

def Step.IsValid : Step → Prop
  | .enter name _ => Name.isValid name
  | .declare e => Name.isValid e.head.name

instance : DecidablePred Step.IsValid
  | .enter name _ => inferInstanceAs (Decidable (Name.isValid name))
  | .declare e => inferInstanceAs (Decidable (Name.isValid e.head.name))

@[simp] lemma Step.member?_declare {k : MemberKind} (e : Entity k) :
    (Step.declare e).member? k = some e := by simp [member?]

lemma Step.member?_eq_some {k : MemberKind} {s : Step} {e : Entity k} :
    s.member? k = some e ↔ s = .declare e := by
  cases s with
  | enter name parent => simp [member?]
  | @declare l f =>
    by_cases h : l = k
    · subst h
      simp
    · simp only [member?, h, dite_false, reduceCtorEq, false_iff]
      intro hc
      cases hc
      exact h rfl

namespace CatalogDefinition

variable {c : CatalogDefinition} {k : MemberKind}

/-- The members of a kind that the catalog declares, in the order of the definition. -/
def entities (c : CatalogDefinition) (k : MemberKind) : List (Entity k) :=
  c.steps.filterMap (Step.member? k)

lemma mem_entities {e : Entity k} : e ∈ c.entities k ↔ ∃ parent d, c.Places parent d ∧
    ∃ m ∈ d.members k, e = Entity.ofDefinition (Name.qualify parent d.head.name) m := by
  simp [entities, List.mem_filterMap, Step.member?_eq_some, mem_steps, SystemDefinition.ownSteps,
    SystemDefinition.declare_mem_declarations]

end CatalogDefinition

namespace Members

variable {m m' : Members}

lemma ext_table (h : ∀ k, m.table k = m'.table k) : m = m' := by
  obtain ⟨⟩ := m
  obtain ⟨⟩ := m'
  simp only [mk.injEq]
  exact ⟨h .parameterType, h .parameter, h .container, h .command, h .algorithm⟩

lemma table_empty (k : MemberKind) : empty.table k = .empty := by cases k <;> rfl

lemma exists_tables {P : (k : MemberKind) → Table (Entity k) → Prop} (h : ∀ k, ∃ t, P k t) :
    ∃ m : Members, ∀ k, P k (m.table k) := by
  choose table htable using h
  refine ⟨⟨table .parameterType, table .parameter, table .container, table .command,
    table .algorithm⟩, fun k => ?_⟩
  cases k <;> exact htable _

/-- A step can be taken if its name is valid and its member can be inserted in the table of its kind.
The other tables stay as they are. -/
lemma take_eq_ok {s : Step} : m.take s = .ok m' ↔ s.IsValid ∧
    ∀ k, (s.member? k).toList.foldlM Table.insert (m.table k) = .ok (m'.table k) := by
  cases s with
  | enter name parent =>
    simp only [take, Step.IsValid, Step.member?, Option.toList_none, List.foldlM_nil, pure,
      Except.pure, Except.ok.injEq]
    split
    · next hv =>
      simp only [hv, true_and, Except.ok.injEq]
      exact ⟨fun h k => h ▸ rfl, ext_table⟩
    · next hv => simp [hv]
  | @declare l e =>
    simp only [take, Step.IsValid]
    split
    · next hv =>
      simp only [hv, true_and, map_eq_ok]
      constructor
      · rintro ⟨t, hi, rfl⟩ k
        by_cases hk : k = l
        · subst hk
          simp [hi]
        · rw [table_withTable_of_ne m hk]
          simp [Step.member?, Ne.symm hk, pure, Except.pure]
      · intro h
        refine ⟨m'.table l, by simpa using h l, ext_table fun k => ?_⟩
        by_cases hk : k = l
        · subst hk
          rw [table_withTable]
        · rw [table_withTable_of_ne m hk]
          simpa [Step.member?, Ne.symm hk, pure, Except.pure] using h k
    · next hv => simp [hv]

lemma foldlM_take_eq_ok {steps : List Step} : steps.foldlM take m = .ok m' ↔
    (∀ s ∈ steps, s.IsValid) ∧ ∀ k,
      (steps.filterMap (Step.member? k)).foldlM Table.insert (m.table k) = .ok (m'.table k) := by
  induction steps generalizing m with
  | nil =>
    simp only [List.foldlM_nil, pure, Except.pure, Except.ok.injEq, List.filterMap_nil,
      List.not_mem_nil, false_imp_iff, implies_true, true_and]
    exact ⟨fun h k => h ▸ rfl, ext_table⟩
  | cons s steps ih =>
    have hcons : ∀ k, (s :: steps).filterMap (Step.member? k) =
        (s.member? k).toList ++ steps.filterMap (Step.member? k) := fun k => by
      rw [List.filterMap_cons]
      cases s.member? k <;> rfl
    simp only [List.foldlM_cons, bind_eq_ok, take_eq_ok, ih, List.forall_mem_cons, hcons,
      List.foldlM_append]
    constructor
    · rintro ⟨m₁, ⟨hv, h₁⟩, hvs, h⟩
      exact ⟨⟨hv, hvs⟩, fun k => ⟨_, h₁ k, h k⟩⟩
    · rintro ⟨⟨hv, hvs⟩, h⟩
      obtain ⟨m₁, hm₁⟩ := exists_tables h
      exact ⟨m₁, ⟨hv, fun k => (hm₁ k).1⟩, hvs, fun k => (hm₁ k).2⟩

end Members

namespace Database

lemma unresolved?_eq_none_iff {db : Database} {k : MemberKind} {e : Entity k} :
    db.unresolved? e = none ↔
      ∀ r ∈ e.references, (db.table r.role.target).contains r.name := by
  simp [unresolved?]

lemma dangling?_eq_none_iff {db : Database} :
    db.dangling? = none ↔ ∀ k, ∀ e ∈ (db.table k).sorted, ∀ r ∈ e.references,
      (db.table r.role.target).contains r.name := by
  simp [dangling?, MemberKind.mem_all, unresolved?_eq_none_iff]

/-- A database is built where all steps can be taken, all nodes inserted, and no reference leads
nowhere. -/
lemma build_eq_ok {c : CatalogDefinition} {db : Database} :
    build c = .ok db ↔ c.steps.foldlM Members.take .empty = .ok db.members ∧
      c.nodes.foldlM Table.insert .empty = .ok db.systems ∧ db.dangling? = none ∧
      db.name = c.name ∧ db.version = c.version ∧ db.root = c.root ∧
      db.users = .ofContainers (db.table .container).sorted := by
  rw [build]
  constructor
  · intro h
    obtain ⟨members, hm, h⟩ := bind_eq_ok.1 h
    obtain ⟨systems, hs, h⟩ := bind_eq_ok.1 h
    dsimp only at h
    split at h
    · simp at h
    · next hd =>
      obtain rfl := Except.ok.inj h
      exact ⟨hm, hs, hd, rfl, rfl, rfl, rfl⟩
  · rintro ⟨hm, hs, hd, hname, hversion, hroot, husers⟩
    rw [table] at husers
    refine bind_eq_ok.2 ⟨_, hm, bind_eq_ok.2 ⟨_, hs, ?_⟩⟩
    simp only [← hname, ← hversion, ← hroot, ← husers, hd]

/-- What a database that was built from a catalog holds: its tables were filled with what the
catalog declares. -/
structure Holds (db : Database) (c : CatalogDefinition) : Prop where
  valid : ∀ s ∈ c.steps, s.IsValid
  filled : ∀ k, (c.entities k).foldlM Table.insert .empty = .ok (db.table k)
  root : db.root = c.root
  systemsFilled : c.nodes.foldlM Table.insert .empty = .ok db.systems
  users : db.users = .ofContainers (db.table .container).sorted

theorem holds_of_build {c : CatalogDefinition} {db : Database} (h : build c = .ok db) :
    db.Holds c := by
  obtain ⟨hm, hs, -, -, -, hroot, husers⟩ := build_eq_ok.1 h
  obtain ⟨hvalid, hfilled⟩ := Members.foldlM_take_eq_ok.1 hm
  refine ⟨hvalid, fun k => ?_, hroot, hs, husers⟩
  rw [← Members.table_empty k]
  exact hfilled k

/-- The parameter names the type, and the database has it. -/
structure HasType (db : Database) (p : Parameter) (t : ParameterType) : Prop where
  declared : t ∈ (db.table .parameterType).sorted
  named : p.details.type = some t.qualifiedName

namespace Holds

variable {db : Database} {c : CatalogDefinition} {k : MemberKind}

lemma consistent (h : db.Holds c) (k : MemberKind) : (db.table k).Consistent :=
  (Table.consistent_empty.foldlM_insert (h.filled k)).1

lemma sorted_perm (h : db.Holds c) (k : MemberKind) : (db.table k).sorted.Perm (c.entities k) :=
  (Table.consistent_empty.foldlM_insert (h.filled k)).2.1

lemma table_eq (h : db.Holds c) (k : MemberKind) : db.table k = .ofList (c.entities k) :=
  (Table.consistent_empty.foldlM_insert (h.filled k)).2.2

lemma systemsConsistent (h : db.Holds c) : db.systems.Consistent :=
  (Table.consistent_empty.foldlM_insert h.systemsFilled).1

lemma systems_perm (h : db.Holds c) : db.systems.sorted.Perm c.nodes :=
  (Table.consistent_empty.foldlM_insert h.systemsFilled).2.1

lemma systems_eq (h : db.Holds c) : db.systems = .ofList c.nodes :=
  (Table.consistent_empty.foldlM_insert h.systemsFilled).2.2

lemma mem_sorted_iff (h : db.Holds c) {e : Entity k} : e ∈ (db.table k).sorted ↔ e ∈ c.entities k :=
  (h.sorted_perm k).mem_iff

lemma mem_systems_iff (h : db.Holds c) {s : SpaceSystem} : s ∈ db.systems.sorted ↔ s ∈ c.nodes :=
  h.systems_perm.mem_iff

lemma mem_sorted (h : db.Holds c) {e : Entity k} :
    e ∈ (db.table k).sorted ↔ ∃ parent d, c.Places parent d ∧
      ∃ m ∈ d.members k, e = Entity.ofDefinition (Name.qualify parent d.head.name) m := by
  rw [h.mem_sorted_iff, CatalogDefinition.mem_entities]

lemma isValid_of_places (h : db.Holds c) {parent : String} {d : SystemDefinition}
    (hp : c.Places parent d) : Name.isValid d.head.name :=
  h.valid (.enter d.head.name parent)
    (CatalogDefinition.mem_steps.2 ⟨parent, d, hp, List.mem_cons_self⟩)

lemma isValid_of_mem_sorted (h : db.Holds c) {e : Entity k} (he : e ∈ (db.table k).sorted) :
    Name.isValid e.head.name := by
  obtain ⟨s, hs, hm⟩ := List.mem_filterMap.1 (h.mem_sorted_iff.1 he)
  obtain rfl := Step.member?_eq_some.1 hm
  exact h.valid _ hs

lemma mem_systems (h : db.Holds c) {s : SpaceSystem} :
    s ∈ db.systems.sorted ↔ s = c.root ∨ ∃ parent d, c.Places parent d ∧ s = d.node parent := by
  rw [h.mem_systems_iff, CatalogDefinition.mem_nodes]

lemma system?_eq_some_iff (h : db.Holds c) {name : String} {s : SpaceSystem} :
    db.system? name = some s ↔ s ∈ db.systems.sorted ∧ s.qualifiedName = name :=
  h.systemsConsistent.get?_eq_some_iff

lemma typeOf?_eq_some_iff (h : db.Holds c) {p : Parameter} {t : ParameterType} :
    db.typeOf? p = some t ↔ db.HasType p t := by
  simp only [typeOf?, Option.bind_eq_some_iff, (h.consistent .parameterType).get?_eq_some_iff]
  constructor
  · rintro ⟨name, hname, ht, rfl⟩
    exact ⟨ht, hname⟩
  · rintro ⟨ht, hname⟩
    exact ⟨_, hname, ht, rfl⟩

lemma system_ext (h : db.Holds c) {s t : SpaceSystem} (hs : s ∈ db.systems.sorted)
    (ht : t ∈ db.systems.sorted) (hname : s.qualifiedName = t.qualifiedName) : s = t :=
  h.systemsConsistent.eq_of_name hs ht hname

end Holds

end Database

end MissionCatalog
