import MissionCatalog.Proofs.Database.Build
import MissionCatalog.Proofs.Name
import MissionCatalog.Resolve
import MissionCatalog.Scope

/-!
# The tree of space systems

In a built database the tree and the names agree: the way up from a space system through its
parents passes just those whose segments its own name goes on from. So an entity lies in the subtree
of a space system just if its name lies under that of the space system.
-/
namespace MissionCatalog

/-- The way up from the space system `name`, itself included, passes the one named `top`. -/
inductive Database.LeadsTo (db : Database) (top : String) : String → Prop
  | here : db.LeadsTo top top
  | up {s : SpaceSystem} {parent : String} (mem : s ∈ db.systems.sorted)
      (hparent : s.parent = some parent) (rest : db.LeadsTo top parent) :
      db.LeadsTo top s.qualifiedName

namespace Database.Holds

open Name

variable {db : Database} {c : CatalogDefinition}

lemma exists_segments (h : db.Holds c) {parent : String} {d : SystemDefinition}
    (hp : c.Places parent d) : ∃ a, ValidSegments a ∧ parent = ofSegments a := by
  induction hp with
  | top mem => exact ⟨[], by simp [ValidSegments], rfl⟩
  | inside above mem ih =>
    obtain ⟨a, ha, rfl⟩ := ih
    exact ⟨_, ValidSegments.append_singleton.2 ⟨ha, h.isValid_of_places above⟩,
      qualify_ofSegments ha _⟩

/-- A definition in its place has a path of valid segments, which its name ends. -/
lemma exists_segments_qualify (h : db.Holds c) {parent : String} {d : SystemDefinition}
    (hp : c.Places parent d) : ∃ a, ValidSegments (a ++ [d.head.name]) ∧ parent = ofSegments a ∧
      qualify parent d.head.name = ofSegments (a ++ [d.head.name]) := by
  obtain ⟨a, ha, rfl⟩ := h.exists_segments hp
  exact ⟨a, ValidSegments.append_singleton.2 ⟨ha, h.isValid_of_places hp⟩, rfl,
    qualify_ofSegments ha _⟩

lemma exists_segments_of_mem (h : db.Holds c) {s : SpaceSystem} (hs : s ∈ db.systems.sorted) :
    ∃ a, ValidSegments a ∧ s.qualifiedName = ofSegments a := by
  rcases h.mem_systems.1 hs with rfl | ⟨parent, d, hp, rfl⟩
  · exact ⟨[], by simp [ValidSegments], rfl⟩
  · obtain ⟨a, ha, -, hq⟩ := h.exists_segments_qualify hp
    exact ⟨_, ha, hq⟩

lemma append_of_leadsTo (h : db.Holds c) {b : List String} (hb : ValidSegments b) {name : String}
    (hl : db.LeadsTo (ofSegments b) name) {a : List String} (ha : ValidSegments a)
    (he : name = ofSegments a) : ∃ t, a = b ++ t := by
  induction hl generalizing a with
  | here =>
    obtain rfl := (ofSegments_inj hb ha).1 he
    exact ⟨[], by simp⟩
  | @up s parent mem hparent rest ih =>
    rcases h.mem_systems.1 mem with rfl | ⟨p, d, hp, rfl⟩
    · simp [CatalogDefinition.root, SpaceSystem.root] at hparent
    · obtain rfl : p = parent := by simpa [SystemDefinition.node] using hparent
      obtain ⟨a', ha', rfl, hq⟩ := h.exists_segments_qualify hp
      obtain ⟨t, rfl⟩ := ih (ValidSegments.append_singleton.1 ha').1 rfl
      rw [SystemDefinition.qualifiedName_node, hq, ofSegments_inj ha' ha] at he
      exact ⟨t ++ [d.head.name], by simp [← he]⟩

lemma leadsTo_of_leadsTo_parent (h : db.Holds c) {parent : String} {d : SystemDefinition}
    (hp : c.Places parent d) {b : List String}
    (hup : ∀ t, ValidSegments (b ++ t) → parent = ofSegments (b ++ t) →
      db.LeadsTo (ofSegments b) parent)
    {t : List String} (hv : ValidSegments (b ++ t))
    (he : qualify parent d.head.name = ofSegments (b ++ t)) :
    db.LeadsTo (ofSegments b) (qualify parent d.head.name) := by
  obtain ⟨a, ha, hpa, hq⟩ := h.exists_segments_qualify hp
  rw [hq, ofSegments_inj ha hv] at he
  rcases List.eq_nil_or_concat t with rfl | ⟨t', n, rfl⟩
  · rw [hq, he, List.append_nil]
    exact .here
  · rw [List.concat_eq_append, ← List.append_assoc] at he
    obtain ⟨rfl, -⟩ := List.append_inj' he rfl
    have hmem : d.node parent ∈ db.systems.sorted := h.mem_systems.2 (.inr ⟨parent, d, hp, rfl⟩)
    exact .up hmem rfl (hup t' (ValidSegments.append_singleton.1 ha).1 hpa)

lemma leadsTo_parent (h : db.Holds c) {parent : String} {d : SystemDefinition}
    (hp : c.Places parent d) {b t : List String} (hb : ValidSegments b)
    (hv : ValidSegments (b ++ t)) (he : parent = ofSegments (b ++ t)) :
    db.LeadsTo (ofSegments b) parent := by
  induction hp generalizing t with
  | top mem =>
    have hnil : b ++ t = [] := ofSegments_eq_empty_iff.1 he.symm
    obtain ⟨rfl, -⟩ := List.append_eq_nil_iff.1 hnil
    exact .here
  | inside above mem ih =>
    exact h.leadsTo_of_leadsTo_parent above (fun _ hv he => ih hv he) hv he

lemma leadsTo_qualify_iff (h : db.Holds c) {parent : String} {d : SystemDefinition}
    (hp : c.Places parent d) {a b : List String} (ha : ValidSegments a) (hb : ValidSegments b)
    (he : qualify parent d.head.name = ofSegments a) :
    db.LeadsTo (ofSegments b) (qualify parent d.head.name) ↔ ∃ t, a = b ++ t := by
  constructor
  · intro hl
    exact h.append_of_leadsTo hb hl ha he
  · rintro ⟨t, rfl⟩
    exact h.leadsTo_of_leadsTo_parent hp
      (fun _ hv he => h.leadsTo_parent hp hb hv he) ha he

lemma leadsTo_qualify_iff_isUnder (h : db.Holds c) {parent : String} {d : SystemDefinition}
    (hp : c.Places parent d) {name : String} (hn : isValid name) {b : List String}
    (hb : ValidSegments b) :
    db.LeadsTo (ofSegments b) (qualify parent d.head.name) ↔
      isUnder (qualify (qualify parent d.head.name) name) (ofSegments b) := by
  obtain ⟨a, ha, -, hq⟩ := h.exists_segments_qualify hp
  have han := ValidSegments.append_singleton.2 ⟨ha, hn⟩
  rw [h.leadsTo_qualify_iff hp ha hb hq, hq, qualify_ofSegments ha,
    isUnder_append_singleton han hb]

/-- An entity lies in the subtree of a space system just if its name lies under that system's. -/
theorem leadsTo_owner_iff (h : db.Holds c) {k : MemberKind} {e : Entity k} {s : SpaceSystem}
    (he : e ∈ (db.table k).sorted) (hs : s ∈ db.systems.sorted) :
    db.LeadsTo s.qualifiedName e.owner ↔ isUnder e.qualifiedName s.qualifiedName := by
  have hn := h.isValid_of_mem_sorted he
  obtain ⟨parent, d, hp, m, -, rfl⟩ := h.mem_sorted.1 he
  obtain ⟨b, hb, hsb⟩ := h.exists_segments_of_mem hs
  rw [hsb]
  exact h.leadsTo_qualify_iff_isUnder hp hn hb

lemma mem_systems_of_resolveSystem (h : db.Holds c) {path : String} {s : SpaceSystem}
    (hr : db.resolveSystem path = .ok s) : s ∈ db.systems.sorted := by
  rw [resolveSystem] at hr
  split at hr
  · obtain rfl := Except.ok.inj hr
    exact h.mem_systems.2 (.inl h.root)
  · dsimp only at hr
    split at hr
    · next found hf =>
      obtain rfl := Except.ok.inj hr
      obtain ⟨key, -, hk⟩ := List.exists_of_findSome?_eq_some hf
      obtain ⟨e, he, rfl⟩ := Option.map_eq_some_iff.1 hk
      exact (h.systemsConsistent.getByKey?_eq_some_iff.1 he).1
    · simp at hr

end Database.Holds

end MissionCatalog
