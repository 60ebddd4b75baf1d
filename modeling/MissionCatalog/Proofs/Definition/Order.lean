import MissionCatalog.Proofs.Database.WellFormed

/-!
# The order of definitions

Two catalogs that differ only in the order of the lists in them, at any depth, define the same in
the same places. So one is well-formed just if the other is.
-/
namespace MissionCatalog

namespace SystemDefinition

/-- The space systems differ at most in the order of the lists in them, at any depth. -/
inductive Reordered : SystemDefinition → SystemDefinition → Prop
  | intro {d e : SystemDefinition} {systems : List SystemDefinition} (head : d.head = e.head)
    (version : d.version = e.version) (members : ∀ k, (d.members k).Perm (e.members k))
    (order : d.systems.Perm systems) (below : List.Forall₂ Reordered systems e.systems) :
    Reordered d e

/-- The space systems of one list are those of another, reordered within and among themselves. -/
def AllReordered (ds es : List SystemDefinition) : Prop :=
  ∃ systems, ds.Perm systems ∧ List.Forall₂ Reordered systems es

variable {d e : SystemDefinition} {ds es : List SystemDefinition}

namespace Reordered

lemma head_eq (h : d.Reordered e) : d.head = e.head := by
  cases h with
  | intro head => exact head

lemma version_eq (h : d.Reordered e) : d.version = e.version := by
  cases h with
  | intro _ version => exact version

lemma members_perm (h : d.Reordered e) (k : MemberKind) : (d.members k).Perm (e.members k) := by
  cases h with
  | intro _ _ members => exact members k

lemma systems (h : d.Reordered e) : AllReordered d.systems e.systems := by
  cases h with
  | intro _ _ _ order below => exact ⟨_, order, below⟩

lemma symm (h : d.Reordered e) : e.Reordered d := by
  refine @Reordered.rec (fun d e _ => e.Reordered d)
    (fun ds es _ => List.Forall₂ Reordered es ds) ?intro .nil
    (fun _ _ head tail => .cons head tail) d e h
  case intro =>
    intro d e systems head version members order _ below
    obtain ⟨back, hback, hbelow⟩ : Relation.Comp List.Perm (List.Forall₂ Reordered)
        e.systems d.systems := by
      rw [← List.forall₂_comp_perm_eq_perm_comp_forall₂]
      exact ⟨systems, below, order.symm⟩
    exact .intro head.symm version.symm (fun k => (members k).symm) hback hbelow

end Reordered

namespace AllReordered

lemma symm (h : AllReordered ds es) : AllReordered es ds := by
  obtain ⟨systems, order, below⟩ := h
  have hcomp : Relation.Comp (List.Forall₂ Reordered) List.Perm es ds :=
    ⟨systems, (below.imp fun _ _ => Reordered.symm).flip, order.symm⟩
  rwa [List.forall₂_comp_perm_eq_perm_comp_forall₂] at hcomp

lemma exists_reordered (h : AllReordered ds es) (hd : d ∈ ds) : ∃ e ∈ es, d.Reordered e := by
  obtain ⟨systems, order, below⟩ := h
  have hmem := order.mem_iff.1 hd
  clear order
  induction below with
  | nil => exact absurd hmem List.not_mem_nil
  | @cons a b as bs hab _ ih =>
    rcases List.mem_cons.1 hmem with rfl | hmem
    · exact ⟨b, List.mem_cons_self, hab⟩
    · obtain ⟨e, he, hde⟩ := ih hmem
      exact ⟨e, List.mem_cons_of_mem b he, hde⟩

lemma map_head_perm (h : AllReordered ds es) {α : Type} (f : Head → α) :
    (ds.map fun d => f d.head).Perm (es.map fun e => f e.head) := by
  obtain ⟨systems, order, below⟩ := h
  refine (order.map _).trans (.of_eq ?_)
  clear order
  induction below with
  | nil => rfl
  | cons hab _ ih => rw [List.map_cons, List.map_cons, hab.head_eq, ih]

end AllReordered

end SystemDefinition

namespace CatalogDefinition

/-- The catalogs differ at most in the order of the lists in them, at any depth. -/
structure Reordered (c d : CatalogDefinition) : Prop where
  name : c.name = d.name
  version : c.version = d.version
  systems : SystemDefinition.AllReordered c.systems d.systems

namespace Reordered

variable {c d : CatalogDefinition}

lemma symm (h : c.Reordered d) : d.Reordered c := ⟨h.name.symm, h.version.symm, h.systems.symm⟩

/-- In the place of every space system the other catalog has the same one, reordered. -/
lemma exists_places (h : c.Reordered d) {parent : String} {e : SystemDefinition}
    (hp : c.Places parent e) : ∃ f, d.Places parent f ∧ e.Reordered f := by
  induction hp with
  | top mem =>
    obtain ⟨f, hf, hef⟩ := h.systems.exists_reordered mem
    exact ⟨f, .top hf, hef⟩
  | inside above mem ih =>
    obtain ⟨g, hg, hr⟩ := ih
    obtain ⟨f, hf, hef⟩ := hr.systems.exists_reordered mem
    rw [hr.head_eq]
    exact ⟨f, .inside hg hf, hef⟩

lemma declares (h : c.Reordered d) {k : MemberKind} {name : String} (hd : c.Declares k name) :
    d.Declares k name := by
  obtain ⟨parent, e, hp, m, hm, rfl⟩ := hd
  obtain ⟨f, hf, hef⟩ := h.exists_places hp
  exact ⟨parent, f, hf, m, (hef.members_perm k).mem_iff.1 hm, by rw [hef.head_eq]⟩

lemma claims (h : c.Reordered d) {kind : Kind} {name : String} {key : Key}
    (hc : c.Claims kind name key) : d.Claims kind name key := by
  cases hc with
  | system place claim =>
    obtain ⟨f, hf, hef⟩ := h.exists_places place
    rw [hef.head_eq] at claim ⊢
    exact .system hf claim
  | member place mem claim =>
    obtain ⟨f, hf, hef⟩ := h.exists_places place
    rw [hef.head_eq] at claim ⊢
    exact .member hf ((hef.members_perm _).mem_iff.1 mem) claim

/-- Nothing that makes a catalog well-formed depends on the order. -/
theorem wellFormed (h : c.Reordered d) (hw : c.WellFormed) : d.WellFormed where
  systemName hp := by
    obtain ⟨f, hf, hef⟩ := h.symm.exists_places hp
    rw [hef.head_eq]
    exact hw.systemName hf
  memberName hp k m hm := by
    obtain ⟨f, hf, hef⟩ := h.symm.exists_places hp
    exact hw.memberName hf m ((hef.members_perm k).mem_iff.1 hm)
  top := (h.systems.map_head_perm Head.name).nodup_iff.1 hw.top
  systems hp := by
    obtain ⟨f, hf, hef⟩ := h.symm.exists_places hp
    exact (hef.systems.map_head_perm Head.name).nodup_iff.2 (hw.systems hf)
  members hp k := by
    obtain ⟨f, hf, hef⟩ := h.symm.exists_places hp
    exact ((hef.members_perm k).map _).nodup_iff.2 (hw.members hf k)
  keys ha hb := hw.keys (h.symm.claims ha) (h.symm.claims hb)
  references hp k m hm target name hr := by
    obtain ⟨f, hf, hef⟩ := h.symm.exists_places hp
    rw [hef.head_eq]
    have hdeclared := hw.references hf m ((hef.members_perm k).mem_iff.1 hm) hr
    split
    · next habs => exact h.declares (by rwa [if_pos habs] at hdeclared)
    · next hrel => exact h.declares (by rwa [if_neg hrel] at hdeclared)

end Reordered

end CatalogDefinition

end MissionCatalog
