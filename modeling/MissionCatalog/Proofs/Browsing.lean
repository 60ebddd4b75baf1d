import MissionCatalog.Proofs.Database.Subtree

/-!
# Browsing

A catalog is browsed by listing the root without a query, and then every space system that a listing
offers, in any order. Such a tour comes to an end and shows every candidate once. It passes just the
space systems in which something stands, and the root.
-/
namespace MissionCatalog

/-- Where a tour stands: what has been offered but not listed yet, and what has been listed. -/
structure Tour where
  pending : List String
  visited : List SpaceSystem

namespace Database

variable {k : MemberKind}

/-- One of the items belongs to the space system or to one that stands in it. -/
def Holding (db : Database) (items : List (Entity k)) (s : SpaceSystem) : Prop :=
  ∃ e ∈ items, ∃ o ∈ db.systems.sorted, o.qualifiedName = e.owner ∧ db.StandsIn o s

/-- What the rule asks of a space system to be offered. -/
def Asked (db : Database) (rule : ChildRule) (candidates : List (Entity k)) (s : SpaceSystem) :
    Prop :=
  match rule with
  | .withCandidates => db.Holding candidates s
  | .withContainers => db.Holding (db.table .container).sorted s

def browsed (db : Database) (rule : ChildRule) (candidates : List (Entity k)) : List SpaceSystem :=
  db.systems.sorted.filter fun s => s.isRoot || db.isOffered rule candidates s

end Database

namespace Tour

variable {k : MemberKind}

def start (db : Database) : Tour := ⟨[db.root.qualifiedName], []⟩

/-- One of the pending space systems is listed. Those that its listing offers become pending. -/
inductive Step (db : Database) (rule : ChildRule) (candidates : List (Entity k)) :
    Tour → Tour → Prop
  | visit {pending rest visited name s}
    (next : pending.Perm (name :: rest)) (found : db.system? name = some s) :
    Step db rule candidates ⟨pending, visited⟩
      ⟨rest ++ (db.restrict candidates (some s) false rule).systems, visited ++ [s]⟩

/-- What the listings have shown so far. -/
def shown (db : Database) (rule : ChildRule) (candidates : List (Entity k)) (t : Tour) :
    List (Entity k) :=
  t.visited.flatMap fun s => (db.restrict candidates (some s) false rule).items

/-- Every item belongs to a space system that has been listed or stands in a pending one. -/
def Accounts {α : Type} (owner : α → String) (items : List α) (t : Tour) : Prop :=
  items.Perm ((t.visited.flatMap fun s => Database.itemsOf owner items s.qualifiedName) ++
    t.pending.flatMap (Database.itemsWithin owner items))

structure Sound (db : Database) (rule : ChildRule) (candidates : List (Entity k)) (t : Tour) :
    Prop where
  pending : ∀ name ∈ t.pending, ∃ s ∈ db.browsed rule candidates, s.qualifiedName = name
  visited : ∀ s ∈ t.visited, s ∈ db.browsed rule candidates
  items : t.Accounts Entity.owner candidates
  systems : t.Accounts SpaceSystem.qualifiedName (db.browsed rule candidates)

variable {db : Database} {rule : ChildRule} {candidates : List (Entity k)}

lemma Step.length_visited {t u : Tour} (hstep : Step db rule candidates t u) :
    u.visited.length = t.visited.length + 1 := by
  cases hstep
  exact List.length_append

lemma reached_of_run {run : ℕ → Tour} (hstart : run 0 = .start db)
    (hstep : ∀ n, Step db rule candidates (run n) (run (n + 1))) (n : ℕ) :
    Relation.ReflTransGen (Step db rule candidates) (.start db) (run n) ∧
      (run n).visited.length = n := by
  induction n with
  | zero =>
    rw [hstart]
    exact ⟨.refl, rfl⟩
  | succ n ih => exact ⟨ih.1.tail (hstep n), by rw [(hstep n).length_visited, ih.2]⟩

end Tour

namespace Database

variable {db : Database} {c : CatalogDefinition} {k : MemberKind} {rule : ChildRule}
  {candidates : List (Entity k)} {s p : SpaceSystem}

lemma Holding.mono {items : List (Entity k)} (hsub : candidates ⊆ items)
    (hh : db.Holding candidates s) : db.Holding items s := by
  obtain ⟨e, he, o⟩ := hh
  exact ⟨e, hsub he, o⟩

lemma Holding.up (hh : db.Holding candidates s) (hr : db.StandsIn s p) :
    db.Holding candidates p := by
  obtain ⟨e, he, o, ho, hname, hos⟩ := hh
  exact ⟨e, he, o, ho, hname, hos.trans hr⟩

lemma Asked.up (ha : db.Asked rule candidates s) (hr : db.StandsIn s p) :
    db.Asked rule candidates p := by
  cases rule with
  | withCandidates => exact Holding.up ha hr
  | withContainers => exact Holding.up ha hr

lemma Holding.asked (hsub : candidates ⊆ (db.table k).sorted)
    (hrule : rule = .withContainers → k = .container) (hh : db.Holding candidates s) :
    db.Asked rule candidates s := by
  cases rule with
  | withCandidates => exact hh
  | withContainers =>
    obtain rfl := hrule rfl
    exact hh.mono hsub

namespace Holds

lemma any_isWithin_iff (h : db.Holds c) (hi : db.Owned Entity.owner candidates)
    (hs : s ∈ db.systems.sorted) :
    candidates.any (·.isWithin s.qualifiedName) ↔ db.Holding candidates s := by
  rw [List.any_eq_true]
  constructor
  · rintro ⟨e, he, hes⟩
    obtain ⟨o, ho, hname⟩ := hi.exists_owner e he
    rw [Entity.isWithin, ← hname, h.isWithin_iff_standsIn ho hs] at hes
    exact ⟨e, he, o, ho, hname, hes⟩
  · rintro ⟨e, he, o, ho, hname, hos⟩
    refine ⟨e, he, ?_⟩
    rwa [Entity.isWithin, ← hname, h.isWithin_iff_standsIn ho hs]

lemma isOffered_iff (hb : build c = .ok db) (hi : db.Owned Entity.owner candidates)
    (hs : s ∈ db.systems.sorted) : db.isOffered rule candidates s ↔ db.Asked rule candidates s := by
  have h := holds_of_build hb
  cases rule with
  | withCandidates => exact h.any_isWithin_iff hi hs
  | withContainers =>
    rw [isOffered, decide_eq_true_eq, containerCount_pos_iff hb hs]
    exact h.any_isWithin_iff (h.owned_sorted .container) hs

lemma mem_browsed (hb : build c = .ok db) (hi : db.Owned Entity.owner candidates) :
    s ∈ db.browsed rule candidates ↔
      s ∈ db.systems.sorted ∧ (s = db.root ∨ db.Asked rule candidates s) := by
  rw [browsed, List.mem_filter]
  refine and_congr_right fun hs => ?_
  rw [Bool.or_eq_true, (holds_of_build hb).isRoot_iff hs, isOffered_iff hb hi hs]

lemma owned_browsed (h : db.Holds c) :
    db.Owned SpaceSystem.qualifiedName (db.browsed rule candidates) where
  nodup := h.owned_systems.nodup.filter _
  exists_owner s hs := ⟨s, List.mem_of_mem_filter hs, rfl⟩

lemma owned_of_subperm (h : db.Holds c) (hsub : candidates.Subperm (db.table k).sorted) :
    db.Owned Entity.owner candidates where
  nodup := by
    obtain ⟨l, hperm, hl⟩ := hsub
    exact hperm.nodup_iff.1 ((h.owned_sorted k).nodup.sublist hl)
  exists_owner e he := (h.owned_sorted k).exists_owner e (hsub.subset he)

lemma offered_perm (s : SpaceSystem) : (db.offered rule candidates s).Perm
    (((db.children s).filter (db.isOffered rule candidates)).map SpaceSystem.qualifiedName) :=
  List.mergeSort_perm _ _

lemma flatMap_filter_of_eq_nil {α β : Type} {l : List α} {p : α → Bool} {f : α → List β}
    (hnil : ∀ a ∈ l, ¬p a → f a = []) : (l.filter p).flatMap f = l.flatMap f := by
  induction l with
  | nil => rfl
  | cons a l ih =>
    rw [List.forall_mem_cons] at hnil
    by_cases ha : p a
    · rw [List.filter_cons_of_pos ha, List.flatMap_cons, List.flatMap_cons, ih hnil.2]
    · rw [List.filter_cons_of_neg ha, List.flatMap_cons, hnil.1 ha, List.nil_append, ih hnil.2]

/-- Nothing is lost with the children that a listing leaves out if nothing stands in these. -/
lemma flatMap_offered_perm {α : Type} {owner : α → String} {items : List α}
    (hleft : ∀ t ∈ db.children s, ¬db.isOffered rule candidates t →
      itemsWithin owner items t.qualifiedName = []) :
    ((db.offered rule candidates s).flatMap (itemsWithin owner items)).Perm
      ((db.children s).flatMap fun t => itemsWithin owner items t.qualifiedName) := by
  refine ((offered_perm s).flatMap_right _).trans (.of_eq ?_)
  rw [List.flatMap_map, flatMap_filter_of_eq_nil hleft]

lemma accounts_step (hb : build c = .ok db) {α : Type} {owner : α → String} {items : List α}
    (hi : db.Owned owner items)
    (hleft : ∀ {t p}, db.HasParent t p → ¬db.isOffered rule candidates t →
      itemsWithin owner items t.qualifiedName = [])
    {t u : Tour} (hstep : Tour.Step db rule candidates t u) (ht : t.Accounts owner items) :
    u.Accounts owner items := by
  have h := holds_of_build hb
  cases hstep with
  | @visit pending rest visited name s next found =>
    obtain ⟨hs, rfl⟩ := h.system?_eq_some_iff.1 found
    -- What stood in the space system is shown now, or it stands in one of the children.
    let own := visited.flatMap fun s => itemsOf owner items s.qualifiedName
    let below := (db.children s).flatMap fun t => itemsWithin owner items t.qualifiedName
    let later := rest.flatMap (itemsWithin owner items)
    have hlisted : items.Perm (own ++ (itemsOf owner items s.qualifiedName ++ below ++ later)) := by
      refine ht.trans (.append_left own ((next.flatMap_right _).trans ?_))
      rw [List.flatMap_cons]
      exact (itemsWithin_perm hb hi hs).append_right later
    have hoffered : ((db.offered rule candidates s).flatMap (itemsWithin owner items)).Perm below :=
      flatMap_offered_perm fun t ht => hleft ((h.mem_children hs).1 ht)
    have hsplit : (visited ++ [s]).flatMap (fun s => itemsOf owner items s.qualifiedName) =
        own ++ itemsOf owner items s.qualifiedName := by
      rw [List.flatMap_append, List.flatMap_singleton]
    rw [Tour.Accounts, hsplit, List.flatMap_append, List.append_assoc]
    refine hlisted.trans (.append_left own ?_)
    rw [List.append_assoc]
    exact .append_left _ (List.perm_append_comm.trans (hoffered.symm.append_left later))

lemma sound_start (hb : build c = .ok db) (hi : db.Owned Entity.owner candidates) :
    (Tour.start db).Sound db rule candidates := by
  have h := holds_of_build hb
  have haccounts : ∀ {α : Type} {owner : α → String} {items : List α}, db.Owned owner items →
      (Tour.start db).Accounts owner items := by
    intro α owner items hi
    simp [Tour.Accounts, Tour.start, h.itemsWithin_root hi]
  refine ⟨fun name hn => ?_, fun s hs => absurd hs List.not_mem_nil, haccounts hi,
    haccounts h.owned_browsed⟩
  exact ⟨db.root, (mem_browsed hb hi).2 ⟨h.root_mem, .inl rfl⟩, (List.mem_singleton.1 hn).symm⟩

/-- Nothing that is to be passed stands in a child that is not offered. -/
lemma itemsWithin_browsed_eq_nil (hb : build c = .ok db) (hi : db.Owned Entity.owner candidates)
    (hp : db.HasParent s p) (hne : ¬db.isOffered rule candidates s) :
    itemsWithin SpaceSystem.qualifiedName (db.browsed rule candidates) s.qualifiedName = [] := by
  have h := holds_of_build hb
  refine List.eq_nil_iff_forall_not_mem.2 fun t ht => hne ?_
  have hmem := (mem_browsed hb hi).1 (List.mem_of_mem_filter ht)
  have hts := ((h.mem_itemsWithin hmem.1 rfl hp.child).1 ht).2
  rw [isOffered_iff hb hi hp.child]
  refine hmem.2.elim (fun hroot => ?_) (fun hasked => hasked.up hts)
  subst hroot
  exact absurd (h.eq_root_of_standsIn hts) ((h.exists_hasParent_iff hp.child).1 ⟨p, hp⟩)

lemma itemsOf_browsed (h : db.Holds c) (hs : s ∈ db.browsed rule candidates) :
    itemsOf SpaceSystem.qualifiedName (db.browsed rule candidates) s.qualifiedName = [s] := by
  have hi : db.Owned SpaceSystem.qualifiedName (db.browsed rule candidates) := h.owned_browsed
  have hrow : ∀ t ∈ db.browsed rule candidates, t ∈ db.systems.sorted := fun t ht =>
    List.mem_of_mem_filter ht
  refine List.perm_singleton.1 ((List.perm_ext_iff_of_nodup (hi.nodup.filter _)
    (List.nodup_singleton s)).2 fun t => ?_)
  rw [List.mem_singleton]
  constructor
  · intro ht
    have hmem := List.mem_of_mem_filter ht
    exact ((h.mem_itemsOf (hrow t hmem) rfl (hrow s hs)).1 ht).2
  · rintro rfl
    exact (h.mem_itemsOf (hrow t hs) rfl (hrow t hs)).2 ⟨hs, rfl⟩

lemma browsed_perm (h : db.Holds c) {t : Tour} (ht : t.Sound db rule candidates) :
    (db.browsed rule candidates).Perm (t.visited ++
      t.pending.flatMap (itemsWithin SpaceSystem.qualifiedName (db.browsed rule candidates))) := by
  have hvisited : t.visited.flatMap (fun s => itemsOf SpaceSystem.qualifiedName
      (db.browsed rule candidates) s.qualifiedName) = t.visited := by
    rw [List.flatMap_congr fun s hs => h.itemsOf_browsed (ht.visited s hs), List.flatMap_singleton']
  have hsystems := ht.systems
  rwa [Tour.Accounts, hvisited] at hsystems

lemma length_visited_le (h : db.Holds c) {t : Tour} (ht : t.Sound db rule candidates) :
    t.visited.length ≤ db.systems.size := by
  have hlength := (h.browsed_perm ht).length_eq
  have hle := (db.systems.sorted.filter_sublist (p := fun s =>
    s.isRoot || db.isOffered rule candidates s)).length_le
  rw [List.length_append] at hlength
  rw [Table.length_sorted] at hle
  exact (Nat.le_add_right _ _).trans (hlength.symm.le.trans hle)

lemma exists_step (h : db.Holds c) {t : Tour} (ht : t.Sound db rule candidates)
    (hne : t.pending ≠ []) : ∃ u, Tour.Step db rule candidates t u := by
  obtain ⟨name, rest, hpending⟩ := List.exists_cons_of_ne_nil hne
  obtain ⟨s, hs, hname⟩ := ht.pending name (hpending ▸ List.mem_cons_self)
  exact ⟨_, .visit (.of_eq hpending)
    (h.system?_eq_some_iff.2 ⟨List.mem_of_mem_filter hs, hname⟩)⟩

section Steps

variable (hb : build c = .ok db) (hsub : candidates.Subperm (db.table k).sorted)
  (hrule : rule = .withContainers → k = .container)

include hb hsub hrule

lemma itemsWithin_candidates_eq_nil (hp : db.HasParent s p)
    (hne : ¬db.isOffered rule candidates s) :
    itemsWithin Entity.owner candidates s.qualifiedName = [] := by
  have h := holds_of_build hb
  have hi := h.owned_of_subperm hsub
  refine List.eq_nil_iff_forall_not_mem.2 fun e he => hne ?_
  have hany : candidates.any (·.isWithin s.qualifiedName) :=
    List.any_eq_true.2 ⟨e, List.mem_filter.1 he⟩
  have hh : db.Holding candidates s := (h.any_isWithin_iff hi hp.child).1 hany
  exact (isOffered_iff hb hi hp.child).2 (hh.asked hsub.subset hrule)

lemma sound_step {t u : Tour} (hstep : Tour.Step db rule candidates t u)
    (ht : t.Sound db rule candidates) : u.Sound db rule candidates := by
  have h := holds_of_build hb
  have hi := h.owned_of_subperm hsub
  have hitems := accounts_step hb hi (itemsWithin_candidates_eq_nil hb hsub hrule) hstep ht.items
  have hsystems :=
    accounts_step hb h.owned_browsed (itemsWithin_browsed_eq_nil hb hi) hstep ht.systems
  cases hstep with
  | @visit pending rest visited name s next found =>
    obtain ⟨hs, rfl⟩ := h.system?_eq_some_iff.1 found
    obtain ⟨hnext, hrest⟩ := List.forall_mem_cons.1 fun n hn => ht.pending n (next.mem_iff.2 hn)
    have hlisted : s ∈ db.browsed rule candidates := by
      obtain ⟨t, ht, hname⟩ := hnext
      rwa [← h.system_ext (List.mem_of_mem_filter ht) hs hname]
    have hoffered : ∀ name ∈ db.offered rule candidates s,
        ∃ t ∈ db.browsed rule candidates, t.qualifiedName = name := by
      intro name hn
      obtain ⟨t, ht, rfl⟩ := List.mem_map.1 ((offered_perm s).mem_iff.1 hn)
      obtain ⟨hchild, hasked⟩ := List.mem_filter.1 ht
      have hmem := ((h.mem_children hs).1 hchild).child
      exact ⟨t, (mem_browsed hb hi).2 ⟨hmem, .inr ((isOffered_iff hb hi hmem).1 hasked)⟩, rfl⟩
    exact ⟨List.forall_mem_append.2 ⟨hrest, hoffered⟩,
      List.forall_mem_append.2 ⟨ht.visited, List.forall_mem_singleton.2 hlisted⟩, hitems, hsystems⟩

lemma sound_run {t : Tour}
    (hrun : Relation.ReflTransGen (Tour.Step db rule candidates) (.start db) t) :
    t.Sound db rule candidates := by
  induction hrun with
  | refl => exact sound_start hb ((holds_of_build hb).owned_of_subperm hsub)
  | tail _ hstep ih => exact sound_step hb hsub hrule hstep ih

lemma exists_end {t : Tour} (ht : t.Sound db rule candidates) :
    ∃ u, Relation.ReflTransGen (Tour.Step db rule candidates) t u ∧ u.pending = [] := by
  have h := holds_of_build hb
  generalize hleft : db.systems.size - t.visited.length = left
  induction left using Nat.strongRecOn generalizing t with
  | ind left ih =>
    by_cases hne : t.pending = []
    · exact ⟨t, .refl, hne⟩
    · obtain ⟨u, hstep⟩ := h.exists_step ht hne
      have hu := sound_step hb hsub hrule hstep ht
      have hle := h.length_visited_le hu
      have hlength := hstep.length_visited
      obtain ⟨v, hv, hend⟩ := ih (db.systems.size - u.visited.length) (by omega) hu rfl
      exact ⟨v, .head hstep hv, hend⟩

end Steps

end Holds

/-- A tour of the offered space systems comes to an end wherever it stands. It has then shown every
candidate once, and passed the root and the space systems that hold something. -/
theorem tours_show_all (hb : build c = .ok db) (hsub : candidates.Subperm (db.table k).sorted)
    (hrule : rule = .withContainers → k = .container) :
    (¬∃ run : ℕ → Tour, run 0 = .start db ∧
      ∀ n, Tour.Step db rule candidates (run n) (run (n + 1))) ∧
    ∀ t, Relation.ReflTransGen (Tour.Step db rule candidates) (.start db) t →
      (∃ u, Relation.ReflTransGen (Tour.Step db rule candidates) t u ∧ u.pending = []) ∧
      (t.pending = [] → (t.shown db rule candidates).Perm candidates ∧
        (t.shown db rule candidates).Nodup ∧ t.visited.Nodup ∧
        ∀ s, s ∈ t.visited ↔
          s ∈ db.systems.sorted ∧ (s = db.root ∨ db.Asked rule candidates s)) := by
  have h := holds_of_build hb
  have hi := h.owned_of_subperm hsub
  have hsound : ∀ {t}, Relation.ReflTransGen (Tour.Step db rule candidates) (.start db) t →
      t.Sound db rule candidates := Holds.sound_run hb hsub hrule
  refine ⟨?_, fun t hrun => ⟨Holds.exists_end hb hsub hrule (hsound hrun), fun hend => ?_⟩⟩
  · rintro ⟨run, hstart, hstep⟩
    obtain ⟨hrun, hlength⟩ := Tour.reached_of_run hstart hstep (db.systems.size + 1)
    have hle := h.length_visited_le (hsound hrun)
    omega
  · have ht := hsound hrun
    have hitems : candidates.Perm (t.shown db rule candidates) := by
      have hitems := ht.items
      rwa [Tour.Accounts, hend, List.flatMap_nil, List.append_nil] at hitems
    have hsystems : (db.browsed rule candidates).Perm t.visited := by
      have hsystems := h.browsed_perm ht
      rwa [hend, List.flatMap_nil, List.append_nil] at hsystems
    refine ⟨hitems.symm, hitems.nodup_iff.1 hi.nodup, hsystems.nodup_iff.1 h.owned_browsed.nodup,
      fun s => ?_⟩
    rw [← hsystems.mem_iff, Holds.mem_browsed hb hi]

def decadeCatalog : CatalogDefinition where
  name := "decade"
  version := none
  systems := [⟨⟨"sys1", none, none, []⟩, none, [], [], [], [], [], []⟩,
    ⟨⟨"sys10", none, none, []⟩, none, [], [], [], [], [], [{
      head := ⟨"sub", none, none, []⟩
      version := none
      parameterTypes := []
      parameters := []
      containers := [⟨⟨"C", none, none, []⟩, ⟨none, false, none, []⟩⟩]
      commands := []
      algorithms := []
      systems := [] }]⟩]

theorem tours_show_all_decade : ∃ db, build decadeCatalog = .ok db ∧
    ∃ e ∈ (db.table .container).sorted, e.qualifiedName = "/sys10/sub/C" ∧
    ∃ t, Relation.ReflTransGen (Tour.Step db .withContainers [e]) (.start db) t ∧
      t.pending = [] ∧ t.shown db .withContainers [e] = [e] ∧
      ∃ s ∈ t.visited, s.qualifiedName = "/sys10/sub" := by
  obtain ⟨db, hb⟩ := CatalogDefinition.exists_build_iff_passes.2
    (show decadeCatalog.Passes by decide +kernel)
  have h := holds_of_build hb
  obtain ⟨e, he, hname, howner⟩ : ∃ e ∈ (db.table .container).sorted,
      e.qualifiedName = "/sys10/sub/C" ∧ e.owner = "/sys10/sub" := by
    rw [h.table_eq]
    decide +kernel
  have hrule : ChildRule.withContainers = .withContainers → MemberKind.container = .container :=
    fun _ => rfl
  obtain ⟨-, htours⟩ := tours_show_all hb (List.singleton_subperm_iff.2 he) hrule
  obtain ⟨t, hrun, hend⟩ := (htours _ .refl).1
  obtain ⟨hshown, -, -, hvisited⟩ := (htours t hrun).2 hend
  obtain ⟨o, ho, -, honame⟩ := h.exists_owner he
  exact ⟨db, hb, e, he, hname, t, hrun, hend, List.perm_singleton.1 hshown, o,
    (hvisited o).2 ⟨ho, .inr ⟨e, he, o, ho, honame, .refl⟩⟩, honame.trans howner⟩

end Database

end MissionCatalog
