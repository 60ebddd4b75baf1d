import MissionCatalog.Proofs.Database.Acceptance
import MissionCatalog.Proofs.Database.Tree

/-!
# Where names lead

A path is looked up under its namespace with one more slash in front, and then as it is written. So a
qualified name leads to the entity that has the first of the two keys as an alias, if there is one, and
else back to its own entity.
-/
namespace MissionCatalog
open Name

namespace Table

variable {α : Type} {t : Table α} {ns name : String}

lemma lookup?_of_first {e : α} (h : t.getByKey? ⟨"/" ++ ns, name⟩ = some e) :
    t.lookup? ns name = some ⟨e, ⟨name, some ("/" ++ ns)⟩⟩ := by
  simp [lookup?, Key.candidates, h]

lemma lookup?_of_second (h : t.getByKey? ⟨"/" ++ ns, name⟩ = none) :
    t.lookup? ns name = (t.getByKey? ⟨ns, name⟩).map fun e => ⟨e, ⟨name, some ns⟩⟩ := by
  cases hs : t.getByKey? ⟨ns, name⟩ <;> simp [lookup?, Key.candidates, h, hs]

variable [Declared α]

/-- An entity with one of the two keys is found, unless another one has the first of them. -/
lemma Consistent.exists_lookup? (h : t.Consistent) {e : α} (he : e ∈ t.sorted)
    (hk : ∃ key ∈ Key.candidates ns name, key ∈ Declared.keys e) :
    ∃ found, t.lookup? ns name = some found ∧
      (found.entity = e ↔ ∀ f ∈ t.sorted, ⟨"/" ++ ns, name⟩ ∈ Declared.keys f → f = e) := by
  cases hfirst : t.getByKey? ⟨"/" ++ ns, name⟩ with
  | some f =>
    obtain ⟨hf, hkf⟩ := h.getByKey?_eq_some_iff.1 hfirst
    refine ⟨_, lookup?_of_first hfirst, fun hfe g hg hkg => ?_, fun hall => hall f hf hkf⟩
    rw [← hfe, h.eq_of_conflict hg hf (.inr ⟨_, hkg, hkf⟩)]
  | none =>
    -- Nobody has the first key, so the second decides.
    have hno := h.getByKey?_eq_none_iff.1 hfirst
    have hsecond : t.getByKey? ⟨ns, name⟩ = some e := by
      obtain ⟨key, hc, hk⟩ := hk
      have hkey : key = ⟨"/" ++ ns, name⟩ ∨ key = ⟨ns, name⟩ := by simpa [Key.candidates] using hc
      rcases hkey with rfl | rfl
      · exact absurd hk (hno e he)
      · exact h.getByKey?_eq_some_iff.2 ⟨he, hk⟩
    refine ⟨⟨e, ⟨name, some ns⟩⟩, by rw [lookup?_of_second hfirst, hsecond]; rfl, ?_⟩
    exact iff_of_true rfl fun f hf hkf => absurd hkf (hno f hf)

lemma resolve_append (hns : ns ≠ "") (hn : isValid name) {found : Resolved α}
    (h : t.lookup? ns name = some found) : t.resolve (ns ++ "/" ++ name) = .ok found := by
  simp [resolve, split?_append hn, hns, h]

end Table

namespace Database

variable {db : Database} {c : CatalogDefinition} {k : MemberKind}

lemma resolveSystem_append {ns name : String} (hn : isValid name) {found : Resolved SpaceSystem}
    (h : db.systems.lookup? ns name = some found) :
    db.resolveSystem (ns ++ "/" ++ name) = .ok found.entity := by
  obtain ⟨hne, hs⟩ := isValid_iff.1 hn
  have hall : ¬(ns ++ "/" ++ name).toList.all (· == '/') := by
    intro hall
    obtain ⟨x, hx⟩ := List.exists_mem_of_ne_nil name.toList (by simpa using hne)
    have hslash : (∀ y ∈ ns.toList, y = '/') ∧ ∀ y ∈ name.toList, y = '/' := by simpa using hall
    exact hs (hslash.2 x hx ▸ hx)
  simp only [resolveSystem, if_neg hall, split?_append hn, Option.getD_some, h]

namespace Holds

lemma exists_owner_segments (h : db.Holds c) {e : Entity k} (he : e ∈ (db.table k).sorted) :
    ∃ a, ValidSegments a ∧ a ≠ [] ∧ e.owner = ofSegments a := by
  obtain ⟨parent, d, hp, m, -, rfl⟩ := h.mem_sorted.1 he
  obtain ⟨a, ha, -, hq⟩ := h.exists_segments_qualify hp
  exact ⟨_, ha, by simp, hq⟩

lemma exists_parent_segments (h : db.Holds c) {s : SpaceSystem} (hs : s ∈ db.systems.sorted)
    {parent : String} (hp : s.parent = some parent) :
    isValid s.head.name ∧ ∃ a, ValidSegments a ∧ parent = ofSegments a := by
  rcases h.mem_systems.1 hs with rfl | ⟨above, d, hplace, rfl⟩
  · exact absurd hp (by simp [CatalogDefinition.root, SpaceSystem.root])
  · obtain rfl : above = parent := by simpa [SystemDefinition.node] using hp
    exact ⟨h.isValid_of_places hplace, h.exists_segments hplace⟩

/-- No member has a key with a slash in front of a namespace by its place, but only as an alias. -/
lemma mem_keys_slash_iff (h : db.Holds c) {e f : Entity k} (he : e ∈ (db.table k).sorted)
    (hf : f ∈ (db.table k).sorted) {name : String} :
    ⟨"/" ++ e.owner, name⟩ ∈ Declared.keys f ↔
      ⟨name, some ("/" ++ e.owner)⟩ ∈ f.head.aliases := by
  rw [Entity.mem_keys]
  refine ⟨fun hc => hc.resolve_left fun hown => ?_, .inr⟩
  obtain ⟨a, -, hne, hea⟩ := h.exists_owner_segments he
  obtain ⟨b, hb, -, hfb⟩ := h.exists_owner_segments hf
  have hspace : canonicalNamespace (ofSegments b) = "/" ++ ofSegments a := by
    simpa [canonicalNamespace, hea, hfb] using hown.2.symm
  have hroot := (canonicalNamespace_eq_append hb hspace).1
  exact hne (ofSegments_eq_empty_iff.1 hroot)

/-- A space system has such a key by its place only if it is the one that is looked for. -/
lemma eq_of_mem_keys_slash (h : db.Holds c) {s t : SpaceSystem} (hs : s ∈ db.systems.sorted)
    (ht : t ∈ db.systems.sorted) {parent : String} (hp : s.parent = some parent)
    (hk : ⟨"/" ++ parent, s.head.name⟩ ∈ Declared.keys t) :
    t = s ∨ ⟨s.head.name, some ("/" ++ parent)⟩ ∈ t.head.aliases := by
  rcases h.mem_systems.1 ht with rfl | ⟨above, d, hplace, rfl⟩
  · exact absurd hk List.not_mem_nil
  rcases Head.claims_iff.1 ((SpaceSystem.mem_keys rfl).1 hk) with hown | halias
  · obtain ⟨-, a, -, rfl⟩ := h.exists_parent_segments hs hp
    obtain ⟨b, hb, rfl⟩ := h.exists_segments hplace
    obtain ⟨hspace, hname⟩ := Key.mk.inj hown
    -- Both stand directly below the root, and have one name.
    obtain ⟨ha, hb⟩ := canonicalNamespace_eq_append hb hspace.symm
    refine .inl (h.systemsConsistent.eq_of_name ht hs ?_)
    change qualify (ofSegments b) d.head.name = s.qualifiedName
    rw [SpaceSystem.qualifiedName, hp, ha, hb]
    exact congrArg (qualify "") hname.symm
  · exact .inr halias

lemma exists_owner_eq (h : db.Holds c) {e : Entity k} (he : e ∈ (db.table k).sorted) :
    e.qualifiedName = e.owner ++ "/" ++ e.head.name ∧
      ⟨e.owner, e.head.name⟩ ∈ Declared.keys e ∧ ∃ ns, ns ≠ "" ∧ e.owner = "/" ++ ns := by
  obtain ⟨a, ha, hne, howner⟩ := h.exists_owner_segments he
  obtain ⟨ns, hns, hslash⟩ := exists_ofSegments_eq_append ha hne
  have hroot : e.owner ≠ "" := by
    rw [howner, hslash]
    simp
  refine ⟨qualify_eq_append (howner ▸ ofSegments_ne_slash ha) _, ?_, ns, hns, howner.trans hslash⟩
  rw [Entity.mem_keys]
  exact .inl ⟨rfl, (if_neg hroot).symm⟩

lemma exists_resolve (h : db.Holds c) {e : Entity k} (he : e ∈ (db.table k).sorted) :
    ∃ found, db.resolve k e.qualifiedName = .ok found ∧ (found.entity = e ↔
      ∀ f ∈ (db.table k).sorted, ⟨e.head.name, some ("/" ++ e.owner)⟩ ∈ f.head.aliases → f = e) := by
  obtain ⟨hname, hown, ns, -, howner⟩ := h.exists_owner_eq he
  have hroot : e.owner ≠ "" := by simp [howner]
  have hcandidate : ⟨e.owner, e.head.name⟩ ∈ Key.candidates e.owner e.head.name := by
    simp [Key.candidates]
  obtain ⟨found, hfound, hiff⟩ := (h.consistent k).exists_lookup? he ⟨_, hcandidate, hown⟩
  refine ⟨found, ?_, hiff.trans (forall₂_congr fun f hf => ?_)⟩
  · rw [hname]
    exact Table.resolve_append hroot (h.isValid_of_mem_sorted he) hfound
  · rw [h.mem_keys_slash_iff he hf]

lemma exists_resolve_self (h : db.Holds c) {e : Entity k} (he : e ∈ (db.table k).sorted) :
    ∃ ns, e.owner = "/" ++ ns ∧
      db.resolve k (ns ++ "/" ++ e.head.name) = .ok ⟨e, ⟨e.head.name, some e.owner⟩⟩ := by
  obtain ⟨-, hown, ns, hns, howner⟩ := h.exists_owner_eq he
  refine ⟨ns, howner, ?_⟩
  rw [howner] at hown ⊢
  -- The namespace with a slash in front is tried first, and that is the member's own.
  have hfirst := (h.consistent k).getByKey?_eq_some_iff.2 ⟨he, hown⟩
  exact Table.resolve_append hns (h.isValid_of_mem_sorted he) (Table.lookup?_of_first hfirst)

lemma exists_resolveSystem (h : db.Holds c) {s : SpaceSystem} (hs : s ∈ db.systems.sorted)
    {parent : String} (hp : s.parent = some parent) :
    ∃ found, db.resolveSystem s.qualifiedName = .ok found ∧ (found = s ↔
      ∀ t ∈ db.systems.sorted, ⟨s.head.name, some ("/" ++ parent)⟩ ∈ t.head.aliases → t = s) := by
  obtain ⟨hvalid, a, ha, hparent⟩ := h.exists_parent_segments hs hp
  have hname : s.qualifiedName = parent ++ "/" ++ s.head.name := by
    rw [SpaceSystem.qualifiedName, hp]
    exact qualify_eq_append (hparent ▸ ofSegments_ne_slash ha) _
  have hown : ⟨canonicalNamespace parent, s.head.name⟩ ∈ Declared.keys s :=
    (SpaceSystem.mem_keys hp).2 (.inl ⟨rfl, rfl⟩)
  have hcandidate : ⟨canonicalNamespace parent, s.head.name⟩ ∈
      Key.candidates parent s.head.name := by
    by_cases hroot : parent = "" <;> simp [Key.candidates, canonicalNamespace, hroot]
  obtain ⟨found, hfound, hiff⟩ := h.systemsConsistent.exists_lookup? hs ⟨_, hcandidate, hown⟩
  refine ⟨found.entity, ?_, hiff.trans (forall₂_congr fun t ht => ⟨fun hall halias => ?_, ?_⟩)⟩
  · rw [hname]
    exact resolveSystem_append hvalid hfound
  · exact hall (SpaceSystem.mem_keys_of_mem_aliases halias)
  · exact fun hall hk => (h.eq_of_mem_keys_slash hs ht hp hk).elim id hall

end Holds

/-- A qualified name leads somewhere, and back to its own entity just if no other entity of the kind
has as an alias the name of this one under its namespace with one more slash in front. -/
theorem qualifiedName_leads_back_iff (hb : build c = .ok db) :
    (∀ k, ∀ e ∈ (db.table k).sorted, ∃ found, db.resolve k e.qualifiedName = .ok found ∧
      (found.entity = e ↔ ∀ f ∈ (db.table k).sorted,
        ⟨e.head.name, some ("/" ++ e.owner)⟩ ∈ f.head.aliases → f = e)) ∧
    ∀ s ∈ db.systems.sorted, ∀ parent ∈ s.parent, ∃ found,
      db.resolveSystem s.qualifiedName = .ok found ∧ (found = s ↔ ∀ t ∈ db.systems.sorted,
        ⟨s.head.name, some ("/" ++ parent)⟩ ∈ t.head.aliases → t = s) := by
  have h := holds_of_build hb
  constructor
  · intro k e he
    exact h.exists_resolve he
  · intro s hs parent hp
    exact h.exists_resolveSystem hs hp

end Database

/-- `Q` and `B` have aliases that come before the places of `P` and `A`, and one name has a dot. -/
def awkwardCatalog : CatalogDefinition where
  name := "awkward"
  version := none
  systems := [{
    head := ⟨"S", none, none, []⟩
    version := none
    parameterTypes := []
    parameters := [⟨⟨"P", none, none, []⟩, ⟨none, none⟩⟩,
      ⟨⟨"Q", none, none, [⟨"P", some "//S"⟩]⟩, ⟨none, none⟩⟩,
      ⟨⟨"a.b", none, none, []⟩, ⟨none, none⟩⟩]
    containers := []
    commands := []
    algorithms := []
    systems := [⟨⟨"A", none, none, []⟩, none, [], [], [], [], [], []⟩,
      ⟨⟨"B", none, none, [⟨"A", some "//S"⟩]⟩, none, [], [], [], [], [], []⟩] }]

lemma exists_build_awkwardCatalog : ∃ db, Database.build awkwardCatalog = .ok db :=
  CatalogDefinition.exists_build_iff_passes.2 (by decide +kernel)

namespace Database

/-- The path of `P` leads to `Q`, and that of `A` to `B`. -/
theorem qualifiedName_leads_astray : ∃ db, build awkwardCatalog = .ok db ∧
    (∃ e ∈ (db.table .parameter).sorted, e.qualifiedName = "/S/P" ∧
      (db.resolve .parameter "/S/P").map (·.entity.qualifiedName) = .ok "/S/Q") ∧
    ∃ s ∈ db.systems.sorted, s.qualifiedName = "/S/A" ∧
      ∃ found, db.resolveSystem "/S/A" = .ok found ∧ found.qualifiedName = "/S/B" := by
  obtain ⟨db, hb⟩ := exists_build_awkwardCatalog
  have h := holds_of_build hb
  have hsystem : ∃ s ∈ db.systems.sorted, s.qualifiedName = "/S/A" := by
    rw [h.systems_eq]
    decide +kernel
  have hlookup : (db.systems.lookup? "/S" "A").map (·.entity.qualifiedName) = some "/S/B" := by
    rw [h.systems_eq]
    decide +kernel
  obtain ⟨s, hs, hname⟩ := hsystem
  obtain ⟨found, hfound, hB⟩ := Option.map_eq_some_iff.1 hlookup
  refine ⟨db, hb, ?_, s, hs, hname, _, resolveSystem_append (by decide) hfound, hB⟩
  rw [resolve, h.table_eq]
  decide +kernel

theorem qualifiedName_leads_back_awkward : ∃ db, build awkwardCatalog = .ok db ∧
    ∃ e ∈ (db.table .parameter).sorted, e.qualifiedName = "/S/Q" ∧
      ∃ found, db.resolve .parameter "/S/Q" = .ok found ∧ found.entity = e := by
  obtain ⟨db, hb⟩ := exists_build_awkwardCatalog
  have h := holds_of_build hb
  have hq : ∃ e ∈ (db.table .parameter).sorted, e.qualifiedName = "/S/Q" ∧
      ∀ f ∈ (db.table .parameter).sorted,
        ⟨e.head.name, some ("/" ++ e.owner)⟩ ∉ f.head.aliases := by
    rw [h.table_eq]
    decide +kernel
  obtain ⟨e, he, hname, hfree⟩ := hq
  obtain ⟨found, hfound, hiff⟩ := (qualifiedName_leads_back_iff hb).1 .parameter e he
  exact ⟨db, hb, e, he, hname, found, hname ▸ hfound,
    hiff.2 fun f hf halias => absurd halias (hfree f hf)⟩

end Database

end MissionCatalog
