import MissionCatalog.Proofs.Database.Acceptance
import MissionCatalog.Proofs.Database.Tree

/-!
# Names and ancestors

The tree of a built database can be followed up, through parents, and down, through lists of children,
and both ways agree. A name lies under that of a space system just if the space system is an ancestor,
so comparing names is the same as walking through the tree.
-/
namespace MissionCatalog

namespace Database

variable {db : Database} {c : CatalogDefinition} {s t p : SpaceSystem}

/-- The space system `s` stands directly in `p`. -/
structure HasParent (db : Database) (s p : SpaceSystem) : Prop where
  child : s ∈ db.systems.sorted
  parent : p ∈ db.systems.sorted
  link : s.parent = some p.qualifiedName

structure HasChild (db : Database) (p s : SpaceSystem) : Prop where
  parent : p ∈ db.systems.sorted
  child : s ∈ db.systems.sorted
  link : s.qualifiedName ∈ p.systems

/-- `s` is `p` or stands somewhere below it. -/
def StandsIn (db : Database) (s p : SpaceSystem) : Prop := Relation.ReflTransGen db.HasParent s p

namespace Holds

open Name

lemma root_mem (h : db.Holds c) : db.root ∈ db.systems.sorted := h.mem_systems.2 (.inl h.root)

lemma qualifiedName_root (h : db.Holds c) : db.root.qualifiedName = "" := by
  rw [h.root]
  rfl

lemma isRoot_iff (h : db.Holds c) (hs : s ∈ db.systems.sorted) : s.isRoot ↔ s = db.root := by
  rw [SpaceSystem.isRoot, beq_iff_eq]
  constructor
  · intro he
    exact h.system_ext hs h.root_mem (he.trans h.qualifiedName_root.symm)
  · rintro rfl
    exact h.qualifiedName_root

lemma parent_root (h : db.Holds c) : db.root.parent = none := by
  rw [h.root]
  rfl

lemma node_mem (h : db.Holds c) {parent : String} {d : SystemDefinition} (hp : c.Places parent d) :
    d.node parent ∈ db.systems.sorted := h.mem_systems.2 (.inr ⟨parent, d, hp, rfl⟩)

/-- What stands under a name stands in the space system of that name, which lists it. -/
lemma exists_mem_of_places (h : db.Holds c) {parent : String} {d : SystemDefinition}
    (hp : c.Places parent d) : ∃ p ∈ db.systems.sorted,
      p.qualifiedName = parent ∧ qualify parent d.head.name ∈ p.systems := by
  cases hp with
  | top mem =>
    refine ⟨db.root, h.root_mem, h.qualifiedName_root, ?_⟩
    rw [h.root]
    exact List.mem_map_of_mem mem
  | inside above mem => exact ⟨_, h.node_mem above, rfl, List.mem_map_of_mem mem⟩

lemma hasParent_of_link (h : db.Holds c) {name : String} (hs : s ∈ db.systems.sorted)
    (hl : s.parent = some name) : ∃ p, db.HasParent s p ∧ p.qualifiedName = name := by
  rcases h.mem_systems.1 hs with rfl | ⟨parent, d, hp, rfl⟩
  · simp [CatalogDefinition.root, SpaceSystem.root] at hl
  · obtain ⟨p, hmem, rfl, -⟩ := h.exists_mem_of_places hp
    obtain rfl : p.qualifiedName = name := Option.some.inj hl
    exact ⟨p, ⟨hs, hmem, hl⟩, rfl⟩

/-- The root is the only space system without a parent. -/
lemma exists_hasParent_iff (h : db.Holds c) (hs : s ∈ db.systems.sorted) :
    (∃ p, db.HasParent s p) ↔ s ≠ db.root := by
  constructor
  · rintro ⟨p, hp⟩ rfl
    have hlink := hp.link
    simp [h.parent_root] at hlink
  · intro hne
    rcases h.mem_systems.1 hs with rfl | ⟨parent, d, hp, rfl⟩
    · exact absurd h.root.symm hne
    · obtain ⟨p, hsp, -⟩ := h.hasParent_of_link hs rfl
      exact ⟨p, hsp⟩

lemma hasParent_unique (h : db.Holds c) {q : SpaceSystem} (hp : db.HasParent s p)
    (hq : db.HasParent s q) : p = q := by
  have hname : p.qualifiedName = q.qualifiedName := Option.some.inj (hp.link.symm.trans hq.link)
  exact h.system_ext hp.parent hq.parent hname

lemma mem_children_iff (h : db.Holds c) (hp : p ∈ db.systems.sorted) {name : String} :
    name ∈ p.systems ↔
      ∃ s ∈ db.systems.sorted, s.parent = some p.qualifiedName ∧ s.qualifiedName = name := by
  constructor
  · intro hn
    rcases h.mem_systems.1 hp with rfl | ⟨parent, d, hd, rfl⟩
    · obtain ⟨e, he, rfl⟩ := List.mem_map.1 hn
      exact ⟨_, h.node_mem (.top he), rfl, rfl⟩
    · obtain ⟨e, he, rfl⟩ := List.mem_map.1 hn
      exact ⟨_, h.node_mem (hd.inside he), rfl, rfl⟩
  · rintro ⟨s, hs, hl, rfl⟩
    rcases h.mem_systems.1 hs with rfl | ⟨parent, d, hd, rfl⟩
    · simp [CatalogDefinition.root, SpaceSystem.root] at hl
    · obtain ⟨q, hq, hname, hmem⟩ := h.exists_mem_of_places hd
      have hpq : p.qualifiedName = q.qualifiedName := (Option.some.inj hl).symm.trans hname.symm
      obtain rfl := h.system_ext hp hq hpq
      exact hmem

lemma hasChild_iff (h : db.Holds c) : db.HasChild p s ↔ db.HasParent s p := by
  constructor
  · rintro ⟨hp, hs, hl⟩
    obtain ⟨t, ht, hparent, hname⟩ := (h.mem_children_iff hp).1 hl
    obtain rfl := h.system_ext ht hs hname
    exact ⟨hs, hp, hparent⟩
  · rintro ⟨hs, hp, hl⟩
    exact ⟨hp, hs, (h.mem_children_iff hp).2 ⟨s, hs, hl, rfl⟩⟩

lemma reachesDown_iff_standsIn (h : db.Holds c) :
    Relation.ReflTransGen db.HasChild p s ↔ db.StandsIn s p := by
  have hswap : db.HasChild = Function.swap db.HasParent := by
    funext p s
    exact propext h.hasChild_iff
  rw [hswap, StandsIn, ← Relation.reflTransGen_swap]

/-- The way up that is told by names is the one through parents. -/
lemma leadsTo_iff_standsIn (h : db.Holds c) (hs : s ∈ db.systems.sorted) (hp : p ∈ db.systems.sorted) :
    db.LeadsTo p.qualifiedName s.qualifiedName ↔ db.StandsIn s p := by
  constructor
  · intro hl
    generalize hname : s.qualifiedName = name at hl
    induction hl generalizing s with
    | here =>
      obtain rfl := h.system_ext hs hp hname
      exact .refl
    | @up t parent mem hparent rest ih =>
      obtain rfl := h.system_ext hs mem hname
      obtain ⟨q, hq, hqname⟩ := h.hasParent_of_link hs hparent
      exact .head hq (ih hq.parent hqname)
  · intro hr
    induction hr using Relation.ReflTransGen.head_induction_on with
    | refl => exact .here
    | head hst _ ih => exact .up hst.child hst.link (ih hst.parent)

lemma standsIn_root (h : db.Holds c) (hs : s ∈ db.systems.sorted) : db.StandsIn s db.root := by
  have hplaced : ∀ {parent : String} {d : SystemDefinition}, c.Places parent d →
      db.StandsIn (d.node parent) db.root := by
    intro parent d hp
    induction hp with
    | top mem =>
      obtain ⟨p, hsp, hname⟩ := h.hasParent_of_link (h.node_mem (.top mem)) rfl
      obtain rfl := h.system_ext hsp.parent h.root_mem (hname.trans h.qualifiedName_root.symm)
      exact .single hsp
    | inside above mem ih =>
      obtain ⟨p, hsp, hname⟩ := h.hasParent_of_link (h.node_mem (above.inside mem)) rfl
      obtain rfl := h.system_ext hsp.parent (h.node_mem above) hname
      exact .head hsp ih
  rcases h.mem_systems.1 hs with rfl | ⟨parent, d, hp, rfl⟩
  · rw [← h.root]
    exact .refl
  · exact hplaced hp

lemma eq_root_of_standsIn (h : db.Holds c) (hr : db.StandsIn db.root s) : s = db.root := by
  rcases Relation.ReflTransGen.cases_head hr with rfl | ⟨q, hq, -⟩
  · rfl
  · exact absurd rfl ((h.exists_hasParent_iff hq.child).1 ⟨q, hq⟩)

theorem isUnder_iff_transGen (h : db.Holds c) (hs : s ∈ db.systems.sorted)
    (hp : p ∈ db.systems.sorted) :
    isUnder s.qualifiedName p.qualifiedName ↔ Relation.TransGen db.HasParent s p := by
  obtain ⟨b, hb, hpb⟩ := h.exists_segments_of_mem hp
  rw [Relation.TransGen.head'_iff]
  rcases h.mem_systems.1 hs with rfl | ⟨parent, d, hd, rfl⟩
  · have hnot : ∀ q, ¬db.HasParent c.root q := by
      intro q hq
      have hlink := hq.link
      simp [CatalogDefinition.root, SpaceSystem.root] at hlink
    have hunder : ¬isUnder (ofSegments []) (ofSegments b) := by
      rw [isUnder_ofSegments (by simp [ValidSegments]) hb]
      rintro ⟨t, hne, ht⟩
      exact hne (List.append_eq_nil_iff.1 ht.symm).2
    rw [hpb]
    refine iff_of_false hunder ?_
    rintro ⟨q, hq, -⟩
    exact hnot q hq
  · obtain ⟨q, hq, hqname⟩ := h.hasParent_of_link hs rfl
    obtain ⟨a, ha, rfl, hda⟩ := h.exists_segments_qualify hd
    have hup : db.StandsIn q p ↔ ∃ t, a = b ++ t := by
      rw [← h.leadsTo_iff_standsIn hq.parent hp, hqname, hpb]
      constructor
      · intro hl
        exact h.append_of_leadsTo hb hl (ValidSegments.append_singleton.1 ha).1 rfl
      · rintro ⟨t, rfl⟩
        exact h.leadsTo_parent hd hb (ValidSegments.append_singleton.1 ha).1 rfl
    rw [SystemDefinition.qualifiedName_node, hda, hpb, isUnder_append_singleton ha hb, ← hup]
    constructor
    · intro hr
      exact ⟨q, hq, hr⟩
    · rintro ⟨q', hq', hr⟩
      rwa [h.hasParent_unique hq hq']

lemma not_transGen_self (h : db.Holds c) (hs : s ∈ db.systems.sorted) :
    ¬Relation.TransGen db.HasParent s s := by
  obtain ⟨a, ha, hsa⟩ := h.exists_segments_of_mem hs
  rw [← h.isUnder_iff_transGen hs hs, hsa, isUnder_ofSegments ha ha]
  rintro ⟨t, hne, ht⟩
  exact hne (List.self_eq_append_right.1 ht)

lemma mem_of_standsIn (hs : s ∈ db.systems.sorted) (hr : db.StandsIn s p) : p ∈ db.systems.sorted := by
  rcases Relation.ReflTransGen.cases_tail hr with rfl | ⟨q, -, hq⟩
  · exact hs
  · exact hq.parent

lemma mem_of_standsIn_left (hp : p ∈ db.systems.sorted) (hr : db.StandsIn s p) :
    s ∈ db.systems.sorted := by
  rcases Relation.ReflTransGen.cases_head hr with rfl | ⟨q, hq, -⟩
  · exact hp
  · exact hq.child

lemma ancestorsWithin_root (h : db.Holds c) (steps : ℕ) :
    db.ancestorsWithin steps db.root.qualifiedName = [] := by
  cases steps with
  | zero => rfl
  | succ steps =>
    have hroot : db.root.isRoot := (h.isRoot_iff h.root_mem).2 rfl
    have hfind := h.system?_eq_some_iff.2 ⟨h.root_mem, rfl⟩
    simp only [ancestorsWithin, hfind, hroot, if_true]

lemma ancestorsWithin_succ (h : db.Holds c) (hp : db.HasParent s p) (steps : ℕ) :
    db.ancestorsWithin (steps + 1) s.qualifiedName =
      s :: db.ancestorsWithin steps p.qualifiedName := by
  have hfind := h.system?_eq_some_iff.2 ⟨hp.child, rfl⟩
  have hroot : ¬s.isRoot := by
    rw [h.isRoot_iff hp.child]
    exact (h.exists_hasParent_iff hp.child).1 ⟨p, hp⟩
  simp [ancestorsWithin, hfind, hroot, hp.link]

/-- The way up ends after as many steps as there are space systems on it, none of them twice. -/
lemma exists_ancestorsWithin_eq (h : db.Holds c) (hs : s ∈ db.systems.sorted) :
    ∃ way : List SpaceSystem, way.Nodup ∧ (∀ t, t ∈ way ↔ t ≠ db.root ∧ db.StandsIn s t) ∧
      ∀ steps, way.length ≤ steps → db.ancestorsWithin steps s.qualifiedName = way := by
  have hr := h.standsIn_root hs
  induction hr using Relation.ReflTransGen.head_induction_on with
  | refl =>
    refine ⟨[], List.nodup_nil, fun t => ?_, fun steps _ => h.ancestorsWithin_root steps⟩
    simp only [List.not_mem_nil, false_iff, not_and]
    exact fun hne hr => hne (h.eq_root_of_standsIn hr)
  | @head s p hsp _ ih =>
    obtain ⟨way, hnodup, hmem, hway⟩ := ih hsp.parent
    refine ⟨s :: way, List.nodup_cons.2 ⟨fun hsw => ?_, hnodup⟩, fun t => ?_, fun steps hle => ?_⟩
    · exact h.not_transGen_self hs (.head' hsp ((hmem s).1 hsw).2)
    · rw [List.mem_cons, hmem]
      constructor
      · rintro (rfl | ⟨hne, hr⟩)
        · exact ⟨(h.exists_hasParent_iff hs).1 ⟨p, hsp⟩, .refl⟩
        · exact ⟨hne, .head hsp hr⟩
      · rintro ⟨hne, hr⟩
        rcases Relation.ReflTransGen.cases_head hr with rfl | ⟨q, hq, hr⟩
        · exact .inl rfl
        · rw [h.hasParent_unique hsp hq]
          exact .inr ⟨hne, hr⟩
    · obtain ⟨n, rfl⟩ : ∃ n, steps = n + 1 := ⟨steps - 1, by simp at hle; omega⟩
      rw [h.ancestorsWithin_succ hsp, hway n (by simpa using hle)]

lemma exists_ancestors_eq (h : db.Holds c) (hs : s ∈ db.systems.sorted) :
    ∃ way : List SpaceSystem, way.length < db.systems.size ∧
      (∀ t, t ∈ way ↔ t ≠ db.root ∧ db.StandsIn s t) ∧
      ∀ steps, way.length ≤ steps → db.ancestorsWithin steps s.qualifiedName = way := by
  obtain ⟨way, hnodup, hmem, hway⟩ := h.exists_ancestorsWithin_eq hs
  have hroot : (db.root :: way).Nodup :=
    List.nodup_cons.2 ⟨fun hr => ((hmem _).1 hr).1 rfl, hnodup⟩
  have hsub : db.root :: way ⊆ db.systems.sorted :=
    List.cons_subset.2 ⟨h.root_mem, fun t ht => mem_of_standsIn hs ((hmem t).1 ht).2⟩
  have hlength := (List.subperm_of_subset hroot hsub).length_le
  rw [Table.length_sorted] at hlength
  exact ⟨way, hlength, hmem, hway⟩

lemma length_ancestors_lt (h : db.Holds c) (hs : s ∈ db.systems.sorted) :
    (db.ancestors s.qualifiedName).length < db.systems.size := by
  obtain ⟨way, hlt, -, hway⟩ := h.exists_ancestors_eq hs
  rwa [ancestors, hway _ hlt.le]

lemma ancestors_of_hasParent (h : db.Holds c) (hp : db.HasParent s p) :
    db.ancestors s.qualifiedName = s :: db.ancestors p.qualifiedName := by
  obtain ⟨way, hlt, -, hway⟩ := h.exists_ancestors_eq hp.parent
  obtain ⟨n, hn⟩ : ∃ n, db.systems.size = n + 1 := ⟨db.systems.size - 1, by omega⟩
  rw [ancestors, ancestors, hway _ hlt.le, hn, h.ancestorsWithin_succ hp, hway n (by omega)]

theorem mem_ancestors_iff (h : db.Holds c) (hs : s ∈ db.systems.sorted) :
    t ∈ db.ancestors s.qualifiedName ↔ t ≠ db.root ∧ db.StandsIn s t := by
  obtain ⟨way, hlt, hmem, hway⟩ := h.exists_ancestors_eq hs
  rw [ancestors, hway _ hlt.le, hmem]

lemma isWithin_iff_standsIn (h : db.Holds c) (hs : s ∈ db.systems.sorted) (hp : p ∈ db.systems.sorted) :
    (s.qualifiedName == p.qualifiedName || isUnder s.qualifiedName p.qualifiedName) ↔
      db.StandsIn s p := by
  rw [Bool.or_eq_true, beq_iff_eq, h.isUnder_iff_transGen hs hp, StandsIn,
    Relation.reflTransGen_iff_eq_or_transGen]
  constructor
  · exact Or.imp_left fun hname => (h.system_ext hs hp hname).symm
  · exact Or.imp_left fun hps => congrArg SpaceSystem.qualifiedName hps.symm

lemma exists_owner (h : db.Holds c) {k : MemberKind} {e : Entity k} (he : e ∈ (db.table k).sorted) :
    ∃ o ∈ db.systems.sorted, o ≠ db.root ∧ o.qualifiedName = e.owner := by
  obtain ⟨parent, d, hp, m, -, rfl⟩ := h.mem_sorted.1 he
  have hmem := h.node_mem hp
  obtain ⟨p, hsp, -⟩ := h.hasParent_of_link hmem rfl
  exact ⟨_, hmem, (h.exists_hasParent_iff hmem).1 ⟨p, hsp⟩, rfl⟩

theorem isUnder_iff_standsIn (h : db.Holds c) {k : MemberKind} {e : Entity k}
    (he : e ∈ (db.table k).sorted) (hs : s ∈ db.systems.sorted) {o : SpaceSystem}
    (ho : o ∈ db.systems.sorted) (hname : o.qualifiedName = e.owner) :
    isUnder e.qualifiedName s.qualifiedName ↔ db.StandsIn o s := by
  rw [← h.leadsTo_owner_iff he hs, ← hname, h.leadsTo_iff_standsIn ho hs]

end Holds

/-- Whether a name lies under that of a space system tells whether the space system is an ancestor:
for entities, for space systems, and so for the candidates that a search in its scope keeps. -/
theorem isUnder_iff_ancestor (hb : build c = .ok db) :
    (∀ {k} (e : Entity k), e ∈ (db.table k).sorted →
      (∃ o ∈ db.systems.sorted, o.qualifiedName = e.owner ∧
        ∀ s, s ∈ db.ancestors e.owner ↔ s ≠ db.root ∧ db.StandsIn o s) ∧
      ∀ s ∈ db.systems.sorted,
        (Name.isUnder e.qualifiedName s.qualifiedName ↔ s = db.root ∨ s ∈ db.ancestors e.owner)) ∧
    (∀ a ∈ db.systems.sorted, ∀ b ∈ db.systems.sorted,
      (Name.isUnder a.qualifiedName b.qualifiedName ↔ Relation.TransGen db.HasParent a b)) ∧
    ∀ {k} (candidates : List (Entity k)), (∀ e ∈ candidates, e ∈ (db.table k).sorted) →
      ∀ s ∈ db.systems.sorted, ∀ rule,
      db.restrict candidates (some s) true rule =
          ⟨candidates.filter fun e => s = db.root ∨ s ∈ db.ancestors e.owner, []⟩ ∧
        ∀ e, e ∈ (db.restrict candidates (some s) true rule).items ↔ e ∈ candidates ∧
          ∃ o, o.qualifiedName = e.owner ∧ Relation.ReflTransGen db.HasChild s o := by
  have h := holds_of_build hb
  have hentity : ∀ {k} (e : Entity k), e ∈ (db.table k).sorted → ∀ s ∈ db.systems.sorted,
      (Name.isUnder e.qualifiedName s.qualifiedName ↔ s = db.root ∨ s ∈ db.ancestors e.owner) := by
    intro k e he s hs
    obtain ⟨o, ho, -, hname⟩ := h.exists_owner he
    have hroot := h.standsIn_root ho
    rw [h.isUnder_iff_standsIn he hs ho hname, ← hname, h.mem_ancestors_iff ho]
    by_cases hsr : s = db.root
    · simp [hsr, hroot]
    · simp [hsr]
  refine ⟨fun e he => ⟨?_, hentity e he⟩, fun a ha b hb => h.isUnder_iff_transGen ha hb,
    fun candidates hc s hs rule => ⟨?_, fun e => ?_⟩⟩
  · obtain ⟨o, ho, -, hname⟩ := h.exists_owner he
    refine ⟨o, ho, hname, fun s => ?_⟩
    rw [← hname, h.mem_ancestors_iff ho]
  · refine congrArg (Scoped.mk · []) (List.filter_congr fun e he => ?_)
    rw [Bool.eq_iff_iff, hentity e (hc e he) s hs, decide_eq_true_eq]
  · change e ∈ candidates.filter _ ↔ _
    rw [List.mem_filter]
    refine and_congr_right fun he => ?_
    obtain ⟨o, ho, -, hname⟩ := h.exists_owner (hc e he)
    rw [h.isUnder_iff_standsIn (hc e he) hs ho hname, ← h.reachesDown_iff_standsIn]
    constructor
    · intro hr
      exact ⟨o, hname, hr⟩
    · rintro ⟨o', hname', hr⟩
      have ho' := Holds.mem_of_standsIn_left hs (h.reachesDown_iff_standsIn.1 hr)
      rwa [h.system_ext ho ho' (hname.trans hname'.symm)]

/-- The name of one space system begins with that of its sibling, which a child of it repeats. -/
def siblingCatalog : CatalogDefinition where
  name := "siblings"
  version := none
  systems := [
    ⟨⟨"é", none, none, []⟩, none, [], [], [], [], [], []⟩,
    ⟨⟨"é1", none, none, []⟩, none, [], [], [], [], [],
      [⟨⟨"é", none, none, []⟩, none, [], [⟨⟨"P", none, none, []⟩, ⟨none, none⟩⟩], [], [], [], []⟩]⟩]

theorem isUnder_iff_ancestor_sibling : ∃ db, build siblingCatalog = .ok db ∧
    ∃ p ∈ (db.table .parameter).sorted, p.qualifiedName = "/é1/é/P" ∧
    ∃ s ∈ db.systems.sorted, s.qualifiedName = "/é1" ∧ s ∈ db.ancestors p.owner ∧
    ∃ t ∈ db.systems.sorted, t.qualifiedName = "/é" ∧ t ∉ db.ancestors p.owner ∧
      ∀ e, e ∉ (db.restrict [p] (some t) true .withCandidates).items := by
  obtain ⟨db, hb⟩ := CatalogDefinition.exists_build_iff_passes.2
    (show siblingCatalog.Passes by decide +kernel)
  have h := holds_of_build hb
  obtain ⟨p, hp, hpname⟩ :
      ∃ p ∈ (db.table .parameter).sorted, p.qualifiedName = "/é1/é/P" := by
    rw [h.table_eq]
    decide +kernel
  obtain ⟨⟨s, hs, hsname⟩, t, ht, htname⟩ : (∃ s ∈ db.systems.sorted, s.qualifiedName = "/é1") ∧
      ∃ t ∈ db.systems.sorted, t.qualifiedName = "/é" := by
    rw [h.systems_eq]
    decide +kernel
  obtain ⟨hentity, -, hscope⟩ := isUnder_iff_ancestor hb
  have hunder := (hentity p hp).2
  have hs' : s ∈ db.ancestors p.owner := by
    have hne : s ≠ db.root := by
      rintro rfl
      exact absurd (hsname.symm.trans h.qualifiedName_root) (by decide +kernel)
    refine ((hunder s hs).1 ?_).resolve_left hne
    rw [hpname, hsname]
    decide +kernel
  have ht' : ¬(t = db.root ∨ t ∈ db.ancestors p.owner) := by
    rw [← hunder t ht, hpname, htname]
    decide +kernel
  refine ⟨db, hb, p, hp, hpname, s, hs, hsname, hs', t, ht, htname, ht' ∘ .inr, fun e he => ?_⟩
  rw [(hscope [p] (by simpa using hp) t ht .withCandidates).1] at he
  simp [ht'] at he

end Database

end MissionCatalog
