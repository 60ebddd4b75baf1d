import MissionCatalog.Proofs.Database.Subtree

/-!
# Walks that end

`Climbs` and `Counts` are the walks up and down the tree as their steps go, with no bound on their
number. Each of them ends, from every space system of a built database, and with one result: the way
up to the root, and the number of containers in the subtree.
-/
namespace MissionCatalog

namespace Database

/-- The walk up, from a space system or from where there is none, passes `way`. -/
inductive Climbs (db : Database) : Option SpaceSystem → List SpaceSystem → Prop
  | nowhere : db.Climbs none []
  | atRoot {s : SpaceSystem} (root : s.isRoot) : db.Climbs (some s) []
  | up {s : SpaceSystem} {way : List SpaceSystem} (below : ¬s.isRoot)
      (rest : db.Climbs (s.parent.bind db.system?) way) : db.Climbs (some s) (s :: way)

/-- The walk down from a space system counts its own containers, and those that it counts from each
of its children. -/
inductive Counts (db : Database) : SpaceSystem → ℕ → Prop
  | node {s : SpaceSystem} {counts : List ℕ}
      (below : List.Forall₂ db.Counts (db.children s) counts) :
      db.Counts s (s.containers.length + counts.sum)

variable {db : Database} {c : CatalogDefinition} {s p : SpaceSystem}

lemma Climbs.unique {start : Option SpaceSystem} {way other : List SpaceSystem}
    (h : db.Climbs start way) (ho : db.Climbs start other) : way = other := by
  induction h generalizing other with
  | nowhere =>
    cases ho
    rfl
  | atRoot root =>
    cases ho with
    | atRoot => rfl
    | up below => exact absurd root below
  | up below rest ih =>
    cases ho with
    | atRoot root => exact absurd root below
    | up _ restOther => rw [ih restOther]

namespace Holds

lemma system?_qualifiedName (h : db.Holds c) (hs : s ∈ db.systems.sorted) :
    db.system? s.qualifiedName = some s := h.system?_eq_some_iff.2 ⟨hs, rfl⟩

lemma bind_parent (h : db.Holds c) (hp : db.HasParent s p) :
    s.parent.bind db.system? = some p := by
  rw [hp.link, Option.bind_some, h.system?_qualifiedName hp.parent]

lemma climbs_ancestors (h : db.Holds c) (hs : s ∈ db.systems.sorted) :
    db.Climbs (some s) (db.ancestors s.qualifiedName) := by
  have hr := h.standsIn_root hs
  induction hr using Relation.ReflTransGen.head_induction_on with
  | refl =>
    rw [ancestors, h.ancestorsWithin_root]
    exact .atRoot ((h.isRoot_iff h.root_mem).2 rfl)
  | @head s p hp _ ih =>
    rw [h.ancestors_of_hasParent hp]
    refine .up ?_ ?_
    · rw [h.isRoot_iff hs]
      exact (h.exists_hasParent_iff hs).1 ⟨p, hp⟩
    · rw [h.bind_parent hp]
      exact ih hp.parent

lemma climbs_iff (h : db.Holds c) (hs : s ∈ db.systems.sorted) {way : List SpaceSystem} :
    db.Climbs (db.system? s.qualifiedName) way ↔ way = db.ancestors s.qualifiedName := by
  rw [h.system?_qualifiedName hs]
  constructor
  · exact fun hway => hway.unique (h.climbs_ancestors hs)
  · rintro rfl
    exact h.climbs_ancestors hs

/-- The ancestors and the root behind them are a way through parents that begins at the space
system. -/
lemma isChain_ancestors (h : db.Holds c) (hs : s ∈ db.systems.sorted) :
    ∃ rest, db.ancestors s.qualifiedName ++ [db.root] = s :: rest ∧
      List.IsChain db.HasParent (s :: rest) := by
  have hr := h.standsIn_root hs
  induction hr using Relation.ReflTransGen.head_induction_on with
  | refl => exact ⟨[], by rw [ancestors, h.ancestorsWithin_root, List.nil_append], .singleton _⟩
  | @head s p hp _ ih =>
    obtain ⟨rest, hrest, hchain⟩ := ih hp.parent
    refine ⟨p :: rest, ?_, .cons_cons hp hchain⟩
    rw [h.ancestors_of_hasParent hp, List.cons_append, hrest]

/-- What passes from the children of each space system to itself holds of all: the way up becomes
longer with each step down, and stays shorter than the list of all space systems. -/
lemma induction_down (h : db.Holds c) {P : SpaceSystem → Prop}
    (step : ∀ s ∈ db.systems.sorted, (∀ t ∈ db.children s, P t) → P s) (hs : s ∈ db.systems.sorted) :
    P s := by
  induction hn : db.systems.size - (db.ancestors s.qualifiedName).length generalizing s with
  | zero =>
    have hlt := h.length_ancestors_lt hs
    omega
  | succ n ih =>
    refine step s hs fun t ht => ?_
    have hts := (h.mem_children hs).1 ht
    refine ih hts.child ?_
    rw [h.ancestors_of_hasParent hts, List.length_cons]
    omega

/-- The bound on the number of levels does not show in the count. -/
lemma containerCount_eq_add (hb : build c = .ok db) (hs : s ∈ db.systems.sorted) :
    db.containerCount s =
      s.containers.length + ((db.children s).map db.containerCount).sum := by
  have hchildren : ∀ t ∈ db.children s, db.containerCount t =
      (itemsWithin Entity.owner (db.table .container).sorted t.qualifiedName).length := by
    intro t ht
    exact containerCount_eq hb (((holds_of_build hb).mem_children hs).1 ht).child
  rw [containerCount_eq hb hs, length_itemsWithin hb hs, List.map_congr_left hchildren]

lemma forall₂_counts_iff {systems : List SpaceSystem} {counts : List ℕ}
    (h : ∀ t ∈ systems, ∀ n, db.Counts t n ↔ n = db.containerCount t) :
    List.Forall₂ db.Counts systems counts ↔ counts = systems.map db.containerCount := by
  induction systems generalizing counts with
  | nil => rw [List.forall₂_nil_left_iff, List.map_nil]
  | cons t systems ih =>
    obtain ⟨ht, hrest⟩ := List.forall_mem_cons.1 h
    simp only [List.forall₂_cons_left_iff, ht, ih hrest, List.map_cons]
    constructor
    · rintro ⟨_, _, rfl, rfl, rfl⟩
      rfl
    · rintro rfl
      exact ⟨_, _, rfl, rfl, rfl⟩

lemma counts_iff (hb : build c = .ok db) (hs : s ∈ db.systems.sorted) :
    ∀ n, db.Counts s n ↔ n = db.containerCount s := by
  have h := holds_of_build hb
  refine h.induction_down (P := fun s => ∀ n, db.Counts s n ↔ n = db.containerCount s) ?_ hs
  intro s hs ih n
  rw [containerCount_eq_add hb hs]
  constructor
  · rintro ⟨below⟩
    rw [(forall₂_counts_iff ih).1 below]
  · rintro rfl
    exact .node ((forall₂_counts_iff ih).2 rfl)

lemma isWithin_iff_standsIn_owner (h : db.Holds c) (hs : s ∈ db.systems.sorted) {k : MemberKind}
    {e : Entity k} (he : e ∈ (db.table k).sorted) :
    e.isWithin s.qualifiedName ↔ ∃ o, o.qualifiedName = e.owner ∧ db.StandsIn o s := by
  obtain ⟨o, ho, -, hname⟩ := h.exists_owner he
  rw [Entity.isWithin, ← hname, h.isWithin_iff_standsIn ho hs]
  constructor
  · intro hr
    exact ⟨o, rfl, hr⟩
  · rintro ⟨o', hname', hr⟩
    rwa [← h.system_ext (mem_of_standsIn_left hs hr) ho hname']

end Holds

/-- From every space system the walk down ends, and counts each container once that stands in the
space system or below it; from the root it counts all containers. The walk up ends as well, and passes
the space systems on the way to the root, the nearest first and without the root. -/
theorem walks_exact (built : build c = .ok db) :
    (∀ s ∈ db.systems.sorted,
      (∀ n, db.Counts s n ↔ n = db.containerCount s) ∧
      db.containerCount s =
        ((db.table .container).sorted.filter fun d => d.isWithin s.qualifiedName).length ∧
      (∀ d ∈ (db.table .container).sorted, d.isWithin s.qualifiedName ↔
        ∃ o, o.qualifiedName = d.owner ∧ db.StandsIn o s) ∧
      (∀ way, db.Climbs (db.system? s.qualifiedName) way ↔ way = db.ancestors s.qualifiedName) ∧
      ∃ rest, db.ancestors s.qualifiedName ++ [db.root] = s :: rest ∧
        List.IsChain db.HasParent (s :: rest)) ∧
    db.containerCount db.root = (db.table .container).size := by
  have h := holds_of_build built
  constructor
  · intro s hs
    exact ⟨Holds.counts_iff built hs, Holds.containerCount_eq built hs,
      fun _ hd => h.isWithin_iff_standsIn_owner hs hd, fun _ => h.climbs_iff hs,
      h.isChain_ancestors hs⟩
  · rw [Holds.containerCount_eq built h.root_mem, h.itemsWithin_root (h.owned_sorted .container),
      Table.length_sorted]

/-- The space systems `/a`, `/a/b` and `/ab` have a container each. -/
def steppedCatalog : CatalogDefinition where
  name := "stepped"
  version := none
  systems := [
    ⟨⟨"a", none, none, []⟩, none, [], [], [⟨⟨"C", none, none, []⟩, ⟨none, false, none, []⟩⟩], [], [],
      [⟨⟨"b", none, none, []⟩, none, [], [], [⟨⟨"C", none, none, []⟩, ⟨none, false, none, []⟩⟩],
        [], [], []⟩]⟩,
    ⟨⟨"ab", none, none, []⟩, none, [], [], [⟨⟨"C", none, none, []⟩, ⟨none, false, none, []⟩⟩], [], [],
      []⟩]

theorem walks_exact_stepped : ∃ db, build steppedCatalog = .ok db ∧ db.Counts db.root 3 ∧
    ∃ a ∈ db.systems.sorted, a.qualifiedName = "/a" ∧ db.Counts a 2 ∧
    ∃ b ∈ db.systems.sorted, b.qualifiedName = "/a/b" ∧ db.ancestors "/a/b" = [b, a] := by
  obtain ⟨db, hb⟩ := CatalogDefinition.exists_build_iff_passes.2
    (show steppedCatalog.Passes by decide +kernel)
  have h := holds_of_build hb
  have hnodes : (∃ a ∈ db.systems.sorted, a.qualifiedName = "/a" ∧ a.parent = some "") ∧
      ∃ b ∈ db.systems.sorted, b.qualifiedName = "/a/b" ∧ b.parent = some "/a" := by
    rw [h.systems_eq]
    decide +kernel
  have hcontainers : ((db.table .container).sorted.filter fun d => d.isWithin "/a").length = 2 ∧
      (db.table .container).size = 3 := by
    rw [h.table_eq]
    decide +kernel
  obtain ⟨⟨a, ha, haname, haparent⟩, b, hb', hbname, hbparent⟩ := hnodes
  obtain ⟨hwalks, hroot⟩ := walks_exact hb
  obtain ⟨hcounts, hcount, -⟩ := hwalks a ha
  obtain ⟨hrootCounts, -⟩ := hwalks db.root h.root_mem
  obtain ⟨-, -, -, hclimbs, -⟩ := hwalks b hb'
  rw [hbname] at hclimbs
  refine ⟨db, hb, ?_, a, ha, haname, ?_, b, hb', hbname, ?_⟩
  · rw [hrootCounts, hroot, hcontainers.2]
  · rw [hcounts, hcount, haname, hcontainers.1]
  · have haroot : ¬a.isRoot := by simp [SpaceSystem.isRoot, haname]
    have hbroot : ¬b.isRoot := by simp [SpaceSystem.isRoot, hbname]
    have hstart : db.system? "/a/b" = some b := h.system?_eq_some_iff.2 ⟨hb', hbname⟩
    have habove : b.parent.bind db.system? = some a := by
      rw [hbparent, Option.bind_some]
      exact h.system?_eq_some_iff.2 ⟨ha, haname⟩
    have htop : a.parent.bind db.system? = some db.root := by
      rw [haparent, Option.bind_some]
      exact h.system?_eq_some_iff.2 ⟨h.root_mem, h.qualifiedName_root⟩
    have hend : db.Climbs (a.parent.bind db.system?) [] := by
      rw [htop]
      exact .atRoot ((h.isRoot_iff h.root_mem).2 rfl)
    have hway : db.Climbs (db.system? "/a/b") [b, a] := by
      rw [hstart]
      refine .up hbroot ?_
      rw [habove]
      exact .up haroot hend
    exact ((hclimbs _).1 hway).symm

end Database

end MissionCatalog
