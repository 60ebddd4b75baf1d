import MissionCatalog.Scope
import MissionCatalog.Proofs.Database.Mirror

/-!
# What stands in a subtree

The subtree of a space system falls apart into the space system itself and the subtrees of its
children, which have nothing in common. So whatever is counted or collected on a walk down the tree
is met once, and a walk that is bounded by the number of space systems is not cut short.
-/
namespace MissionCatalog

namespace Database

/-- The items that the named space system owns, or one that stands in it. -/
def itemsWithin {α : Type} (owner : α → String) (items : List α) (system : String) : List α :=
  items.filter fun a => owner a == system || Name.isUnder (owner a) system

def itemsOf {α : Type} (owner : α → String) (items : List α) (system : String) : List α :=
  items.filter fun a => owner a == system

def children (db : Database) (s : SpaceSystem) : List SpaceSystem := s.systems.filterMap db.system?

/-- Different items, each with an owner in the database. -/
structure Owned {α : Type} (db : Database) (owner : α → String) (items : List α) : Prop where
  nodup : items.Nodup
  exists_owner : ∀ a ∈ items, ∃ o ∈ db.systems.sorted, o.qualifiedName = owner a

variable {db : Database} {c : CatalogDefinition} {s t p : SpaceSystem} {α : Type}
  {owner : α → String} {items : List α}

namespace Holds

lemma map_children (h : db.Holds c) (hs : s ∈ db.systems.sorted) :
    (db.children s).map SpaceSystem.qualifiedName = s.systems := by
  have hfound : ∀ name ∈ s.systems,
      (db.system? name).map SpaceSystem.qualifiedName = some name := by
    intro name hn
    obtain ⟨t, ht, -, rfl⟩ := (h.mem_children_iff hs).1 hn
    rw [h.system?_eq_some_iff.2 ⟨ht, rfl⟩, Option.map_some]
  rw [children, List.map_filterMap, List.filterMap_congr hfound, List.filterMap_some]

lemma mem_children (h : db.Holds c) (hs : s ∈ db.systems.sorted) :
    t ∈ db.children s ↔ db.HasParent t s := by
  rw [← h.hasChild_iff, children, List.mem_filterMap]
  constructor
  · rintro ⟨name, hn, hf⟩
    obtain ⟨ht, rfl⟩ := h.system?_eq_some_iff.1 hf
    exact ⟨hs, ht, hn⟩
  · intro ht
    exact ⟨_, ht.link, h.system?_eq_some_iff.2 ⟨ht.child, rfl⟩⟩

lemma nodup_children (hb : build c = .ok db) (hs : s ∈ db.systems.sorted) :
    (db.children s).Nodup := by
  refine .of_map SpaceSystem.qualifiedName ?_
  rw [(holds_of_build hb).map_children hs]
  exact Database.nodup_children hb hs

lemma eq_of_standsIn_siblings (h : db.Holds c) {o : SpaceSystem} (ht : db.HasParent t p)
    (hs : db.HasParent s p) (hot : db.StandsIn o t) (hos : db.StandsIn o s) : t = s := by
  have hunique : Relator.RightUnique db.HasParent := fun _ _ _ hp hq => h.hasParent_unique hp hq
  have hapart : ∀ {t s : SpaceSystem}, db.HasParent t p → db.HasParent s p → db.StandsIn t s →
      t = s := by
    intro t s ht hs hts
    rcases Relation.ReflTransGen.cases_head hts with rfl | ⟨q, hq, hqs⟩
    · rfl
    · obtain rfl := h.hasParent_unique ht hq
      exact absurd (.head' hs hqs) (h.not_transGen_self hs.child)
  rcases Relation.ReflTransGen.total_of_right_unique hunique hot hos with hts | hst
  · exact hapart ht hs hts
  · exact (hapart hs ht hst).symm

lemma mem_itemsWithin (h : db.Holds c) {a : α} {o : SpaceSystem} (ho : o ∈ db.systems.sorted)
    (hname : o.qualifiedName = owner a) (hs : s ∈ db.systems.sorted) :
    a ∈ itemsWithin owner items s.qualifiedName ↔ a ∈ items ∧ db.StandsIn o s := by
  rw [itemsWithin, List.mem_filter, ← hname, h.isWithin_iff_standsIn ho hs]

lemma mem_itemsOf (h : db.Holds c) {a : α} {o : SpaceSystem} (ho : o ∈ db.systems.sorted)
    (hname : o.qualifiedName = owner a) (hs : s ∈ db.systems.sorted) :
    a ∈ itemsOf owner items s.qualifiedName ↔ a ∈ items ∧ o = s := by
  rw [itemsOf, List.mem_filter, ← hname, beq_iff_eq]
  refine and_congr_right fun _ => ⟨fun he => h.system_ext ho hs he, fun he => ?_⟩
  rw [he]

lemma exists_standsIn_of_mem (h : db.Holds c) (hi : db.Owned owner items)
    (hs : s ∈ db.systems.sorted) {a : α} (ha : a ∈ itemsWithin owner items s.qualifiedName) :
    ∃ o ∈ db.systems.sorted, o.qualifiedName = owner a ∧ db.StandsIn o s := by
  obtain ⟨o, ho, hname⟩ := hi.exists_owner a (List.mem_of_mem_filter ha)
  exact ⟨o, ho, hname, ((h.mem_itemsWithin ho hname hs).1 ha).2⟩

lemma mem_itemsWithin_iff (h : db.Holds c) (hi : db.Owned owner items) (hs : s ∈ db.systems.sorted)
    {a : α} : a ∈ itemsWithin owner items s.qualifiedName ↔
      a ∈ itemsOf owner items s.qualifiedName ∨
        ∃ t ∈ db.children s, a ∈ itemsWithin owner items t.qualifiedName := by
  constructor
  · intro ha
    have hmem := List.mem_of_mem_filter ha
    obtain ⟨o, ho, hname, hos⟩ := h.exists_standsIn_of_mem hi hs ha
    rcases Relation.ReflTransGen.cases_tail hos with rfl | ⟨t, hot, hts⟩
    · exact .inl ((h.mem_itemsOf ho hname hs).2 ⟨hmem, rfl⟩)
    · exact .inr ⟨t, (h.mem_children hs).2 hts,
        (h.mem_itemsWithin ho hname hts.child).2 ⟨hmem, hot⟩⟩
  · rintro (ha | ⟨t, ht, ha⟩)
    · obtain ⟨o, ho, hname⟩ := hi.exists_owner a (List.mem_of_mem_filter ha)
      obtain ⟨hmem, rfl⟩ := (h.mem_itemsOf ho hname hs).1 ha
      exact (h.mem_itemsWithin ho hname hs).2 ⟨hmem, .refl⟩
    · have hts := (h.mem_children hs).1 ht
      obtain ⟨o, ho, hname, hot⟩ := h.exists_standsIn_of_mem hi hts.child ha
      exact (h.mem_itemsWithin ho hname hs).2 ⟨List.mem_of_mem_filter ha, .tail hot hts⟩

lemma nodup_itemsWithin_children (hb : build c = .ok db) (hi : db.Owned owner items)
    (hs : s ∈ db.systems.sorted) :
    ((db.children s).flatMap fun t => itemsWithin owner items t.qualifiedName).Nodup := by
  have h := holds_of_build hb
  refine List.nodup_flatMap.2 ⟨fun t _ => hi.nodup.filter _, ?_⟩
  refine (nodup_children hb hs).imp_of_mem ?_
  intro t u ht hu hne a hat hau
  have hts := (h.mem_children hs).1 ht
  have hus := (h.mem_children hs).1 hu
  obtain ⟨o, ho, hname, hot⟩ := h.exists_standsIn_of_mem hi hts.child hat
  have hou := ((h.mem_itemsWithin ho hname hus.child).1 hau).2
  exact hne (h.eq_of_standsIn_siblings hts hus hot hou)

/-- What a space system owns does not stand in a child: this would make it its own ancestor. -/
lemma disjoint_itemsOf (h : db.Holds c) (hi : db.Owned owner items) (hs : s ∈ db.systems.sorted) :
    (itemsOf owner items s.qualifiedName).Disjoint
      ((db.children s).flatMap fun t => itemsWithin owner items t.qualifiedName) := by
  intro a ha hbelow
  obtain ⟨t, ht, hat⟩ := List.mem_flatMap.1 hbelow
  have hts := (h.mem_children hs).1 ht
  obtain ⟨o, ho, hname, hot⟩ := h.exists_standsIn_of_mem hi hts.child hat
  obtain rfl := ((h.mem_itemsOf ho hname hs).1 ha).2
  exact h.not_transGen_self hs (.tail' hot hts)

/-- What stands in a space system is what it owns and, child by child, what stands in these. -/
theorem itemsWithin_perm (hb : build c = .ok db) (hi : db.Owned owner items)
    (hs : s ∈ db.systems.sorted) :
    (itemsWithin owner items s.qualifiedName).Perm (itemsOf owner items s.qualifiedName ++
      (db.children s).flatMap fun t => itemsWithin owner items t.qualifiedName) := by
  have h := holds_of_build hb
  have hparts := List.nodup_append'.2 ⟨hi.nodup.filter _, nodup_itemsWithin_children hb hi hs,
    h.disjoint_itemsOf hi hs⟩
  refine (List.perm_ext_iff_of_nodup (hi.nodup.filter _) hparts).2 fun a => ?_
  rw [List.mem_append, List.mem_flatMap]
  exact h.mem_itemsWithin_iff hi hs

lemma itemsWithin_root (h : db.Holds c) (hi : db.Owned owner items) :
    itemsWithin owner items db.root.qualifiedName = items := by
  refine List.filter_eq_self.2 fun a ha => ?_
  obtain ⟨o, ho, hname⟩ := hi.exists_owner a ha
  rw [← hname, h.isWithin_iff_standsIn ho h.root_mem]
  exact h.standsIn_root ho

lemma owned_sorted (h : db.Holds c) (k : MemberKind) :
    db.Owned Entity.owner (db.table k).sorted where
  nodup := .of_map _ (h.consistent k).nodup_names
  exists_owner e he := by
    obtain ⟨o, ho, -, hname⟩ := h.exists_owner he
    exact ⟨o, ho, hname⟩

lemma owned_systems (h : db.Holds c) :
    db.Owned SpaceSystem.qualifiedName db.systems.sorted where
  nodup := .of_map _ h.systemsConsistent.nodup_names
  exists_owner s hs := ⟨s, hs, rfl⟩

lemma length_itemsOf (hb : build c = .ok db) (hs : s ∈ db.systems.sorted) (k : MemberKind) :
    (itemsOf Entity.owner (db.table k).sorted s.qualifiedName).length = (s.members k).length := by
  have h := holds_of_build hb
  have hw := wellFormed_of_build hb
  have hown : ((itemsOf Entity.owner (db.table k).sorted s.qualifiedName).map
      Entity.qualifiedName).Nodup :=
    (h.consistent k).nodup_names.sublist (List.filter_sublist.map _)
  have hperm : ((itemsOf Entity.owner (db.table k).sorted s.qualifiedName).map
      Entity.qualifiedName).Perm (s.members k) := by
    refine (List.perm_ext_iff_of_nodup hown (h.nodup_members hw hs k)).2 fun name => ?_
    rw [h.mem_members_iff hs, List.mem_map]
    simp only [itemsOf, List.mem_filter, beq_iff_eq, and_assoc]
  rw [← hperm.length_eq, List.length_map]

lemma containerCountWithin_succ (steps : ℕ) (s : SpaceSystem) :
    db.containerCountWithin (steps + 1) s =
      s.containers.length + ((db.children s).map (db.containerCountWithin steps)).sum := rfl

lemma length_itemsWithin (hb : build c = .ok db) (hs : s ∈ db.systems.sorted) :
    (itemsWithin Entity.owner (db.table .container).sorted s.qualifiedName).length =
      s.containers.length + ((db.children s).map fun t =>
        (itemsWithin Entity.owner (db.table .container).sorted t.qualifiedName).length).sum := by
  have hparts := (itemsWithin_perm hb ((holds_of_build hb).owned_sorted .container) hs).length_eq
  rw [List.length_append, length_itemsOf hb hs, List.length_flatMap] at hparts
  exact hparts

/-- Each level of the walk down uses up one step, and there are more steps than levels. -/
lemma containerCountWithin_eq (hb : build c = .ok db) {steps : ℕ} (hs : s ∈ db.systems.sorted)
    (hsteps : db.systems.size ≤ steps + (db.ancestors s.qualifiedName).length) :
    db.containerCountWithin steps s =
      (itemsWithin Entity.owner (db.table .container).sorted s.qualifiedName).length := by
  have h := holds_of_build hb
  induction steps generalizing s with
  | zero => exact absurd (h.length_ancestors_lt hs) (by omega)
  | succ steps ih =>
    have hbelow : ∀ t ∈ db.children s, db.containerCountWithin steps t =
        (itemsWithin Entity.owner (db.table .container).sorted t.qualifiedName).length := by
      intro t ht
      have hts := (h.mem_children hs).1 ht
      refine ih hts.child ?_
      rw [h.ancestors_of_hasParent hts, List.length_cons]
      omega
    rw [containerCountWithin_succ, length_itemsWithin hb hs, List.map_congr_left hbelow]

/-- The containers in a space system and below it are counted once each. -/
theorem containerCount_eq (hb : build c = .ok db) (hs : s ∈ db.systems.sorted) :
    db.containerCount s =
      (itemsWithin Entity.owner (db.table .container).sorted s.qualifiedName).length :=
  containerCountWithin_eq hb hs (Nat.le_add_right _ _)

lemma containerCount_pos_iff (hb : build c = .ok db) (hs : s ∈ db.systems.sorted) :
    0 < db.containerCount s ↔ (db.table .container).sorted.any (·.isWithin s.qualifiedName) := by
  rw [containerCount_eq hb hs, List.length_pos_iff_exists_mem, List.any_eq_true]
  exact exists_congr fun _ => List.mem_filter

lemma offered_withContainers (hb : build c = .ok db) (hs : s ∈ db.systems.sorted) {k : MemberKind}
    (entities : List (Entity k)) : db.offered .withContainers entities s =
      db.offered .withCandidates (db.table .container).sorted s := by
  have hfilter : (db.children s).filter (db.isOffered .withContainers entities) =
      (db.children s).filter (db.isOffered .withCandidates (db.table .container).sorted) := by
    refine List.filter_congr fun t ht => ?_
    have hts := ((holds_of_build hb).mem_children hs).1 ht
    rw [Bool.eq_iff_iff, isOffered, isOffered, decide_eq_true_eq]
    exact containerCount_pos_iff hb hts.child
  exact congrArg (fun systems => (systems.map SpaceSystem.qualifiedName).mergeSort) hfilter

end Holds

end Database

end MissionCatalog
