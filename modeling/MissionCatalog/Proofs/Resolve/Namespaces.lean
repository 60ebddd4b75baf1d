import MissionCatalog.Proofs.Database.Index
import MissionCatalog.Proofs.Resolve.Lookup

/-!
# Exact resolution of paths

`Name.SplitsInto` and `Name.ReadsAs` say how the paths of members and of space systems are read, and
`Table.FoundUnder` what is found under a namespace and a name. Paths lead to just that: places come
before aliases wherever the path has no slash in front.
-/
namespace MissionCatalog
open Name

namespace Name

/-- The last slash of the path parts the namespace from a name. -/
structure SplitsInto (path ns name : String) : Prop where
  path_eq : path = ns ++ "/" ++ name
  ne_empty : name ≠ ""
  noSlash : '/' ∉ name.toList

/-- The namespace and the name in the path of a space system. -/
inductive ReadsAs (path : String) : String → String → Prop
  | split {ns name : String} (parts : SplitsInto path ns name) : ReadsAs path ns name
  /-- Without a name behind a slash the whole path is a name below the root. -/
  | whole (noName : '/' ∉ path.toList ∨ path.toList.getLast? = some '/') : ReadsAs path "" path

lemma split?_eq_some_iff {path ns name : String} :
    split? path = some (ns, name) ↔ SplitsInto path ns name := by
  constructor
  · intro h
    rw [split?] at h
    split at h
    · simp at h
    · next before after hne hcut =>
      obtain ⟨hpath, hslash⟩ := Text.eq_append_of_splitLast hcut
      obtain ⟨rfl, rfl⟩ : String.ofList before = ns ∧ String.ofList after = name := by simpa using h
      refine ⟨String.toList_inj.1 ?_, fun hempty => ?_, by simpa using hslash⟩
      · simp [hpath]
      · exact hne (String.ofList_eq_empty_iff.1 hempty)
    · simp at h
  · rintro ⟨rfl, hne, hslash⟩
    exact split?_append (isValid_iff.2 ⟨hne, hslash⟩) ns

lemma split?_eq_none_iff {path : String} :
    split? path = none ↔ '/' ∉ path.toList ∨ path.toList.getLast? = some '/' := by
  rw [split?]
  cases hcut : Text.splitLast '/' path.toList with
  | none => simp [Text.splitLast_eq_none_iff.1 hcut]
  | some cut =>
    obtain ⟨before, after⟩ := cut
    obtain ⟨hpath, hslash⟩ := Text.eq_append_of_splitLast hcut
    cases after with
    | nil => simp [hpath]
    | cons x xs =>
      have hlast : (x :: xs).getLast? ≠ some '/' := fun h => hslash (List.mem_of_getLast? h)
      simpa [hpath] using hlast

lemma getD_split?_eq_iff {path ns name : String} :
    (split? path).getD ("", path) = (ns, name) ↔ ReadsAs path ns name := by
  constructor
  · intro h
    cases hs : split? path with
    | none =>
      obtain ⟨rfl, rfl⟩ : "" = ns ∧ path = name := by simpa [hs] using h
      exact .whole (split?_eq_none_iff.1 hs)
    | some cut =>
      obtain rfl : cut = (ns, name) := by simpa [hs] using h
      exact .split (split?_eq_some_iff.1 hs)
  · rintro (hparts | hwhole)
    · rw [split?_eq_some_iff.2 hparts, Option.getD_some]
    · rw [split?_eq_none_iff.2 hwhole, Option.getD_none]

end Name

namespace Table

variable {α : Type} [Declared α] {t : Table α} {declared : α → Key → Prop} {ns name : String}

/-- Under the namespace and the name the entity is found, by the key that they stand for. -/
inductive FoundUnder (t : Table α) (declared : α → Key → Prop) (ns name : String) (e : α) :
    Key → Prop
  | slashed (mem : e ∈ t.sorted) (own : declared e ⟨"/" ++ ns, name⟩) :
      FoundUnder t declared ns name e ⟨"/" ++ ns, name⟩
  | asWritten (free : ∀ f ∈ t.sorted, ¬declared f ⟨"/" ++ ns, name⟩) (mem : e ∈ t.sorted)
      (own : declared e ⟨ns, name⟩) : FoundUnder t declared ns name e ⟨ns, name⟩

lemma Consistent.getByKey?_eq_none_iff_declared (h : t.Consistent) (hk : t.KeyedBy declared)
    {key : Key} : t.getByKey? key = none ↔ ∀ f ∈ t.sorted, ¬declared f key := by
  rw [h.getByKey?_eq_none_iff]
  exact forall₂_congr fun f hf => by rw [hk f hf]

lemma Consistent.lookup?_eq_some_iff (h : t.Consistent) (hk : t.KeyedBy declared) {e : α}
    {id : ObjectId} : t.lookup? ns name = some ⟨e, id⟩ ↔
      ∃ key, t.FoundUnder declared ns name e key ∧ id = ⟨key.name, some key.space⟩ := by
  have hget : ∀ {f key}, t.getByKey? key = some f ↔ f ∈ t.sorted ∧ declared f key := fun {f key} =>
    h.getByKey?_eq_some_iff.trans (and_congr_right fun hf => hk f hf key)
  constructor
  · intro hl
    cases hfirst : t.getByKey? ⟨"/" ++ ns, name⟩ with
    | some f =>
      obtain ⟨rfl, rfl⟩ : f = e ∧ _ = id := by simpa [lookup?_of_first hfirst] using hl
      obtain ⟨hmem, hown⟩ := hget.1 hfirst
      exact ⟨_, .slashed hmem hown, rfl⟩
    | none =>
      rw [lookup?_of_second hfirst, Option.map_eq_some_iff] at hl
      obtain ⟨f, hsecond, hf⟩ := hl
      obtain ⟨rfl, rfl⟩ := Resolved.mk.inj hf
      obtain ⟨hmem, hown⟩ := hget.1 hsecond
      exact ⟨_, .asWritten ((h.getByKey?_eq_none_iff_declared hk).1 hfirst) hmem hown, rfl⟩
  · rintro ⟨key, hfound, rfl⟩
    cases hfound with
    | slashed hmem hown => exact lookup?_of_first (hget.2 ⟨hmem, hown⟩)
    | asWritten hfree hmem hown =>
      rw [lookup?_of_second ((h.getByKey?_eq_none_iff_declared hk).2 hfree), hget.2 ⟨hmem, hown⟩]
      rfl

/-- What is declared under the namespace as it is written is found there, unless something else is
declared under the namespace with a slash in front. -/
lemma Consistent.exists_lookup?_asWritten (h : t.Consistent) (hk : t.KeyedBy declared) {e : α}
    (he : e ∈ t.sorted) (hown : declared e ⟨ns, name⟩) :
    ∃ found, t.lookup? ns name = some found ∧
      (found.entity = e ↔ ∀ f ∈ t.sorted, declared f ⟨"/" ++ ns, name⟩ → f = e) := by
  have hcandidate : ⟨ns, name⟩ ∈ Key.candidates ns name := by simp [Key.candidates]
  obtain ⟨found, hfound, hiff⟩ := h.exists_lookup? he ⟨_, hcandidate, (hk e he _).2 hown⟩
  refine ⟨found, hfound, hiff.trans ?_⟩
  exact forall₂_congr fun f hf => by rw [hk f hf]

lemma resolve_eq_ok_iff {path : String} {found : Resolved α} : t.resolve path = .ok found ↔
    ∃ ns name, SplitsInto path ns name ∧ ns ≠ "" ∧ t.lookup? ns name = some found := by
  simp only [← split?_eq_some_iff, resolve]
  cases split? path with
  | none => simp
  | some cut =>
    obtain ⟨ns, name⟩ := cut
    by_cases hns : ns = ""
    · simp [hns]
    · cases hl : t.lookup? ns name <;> simp [hns, hl]

lemma category_of_resolve {path : String} {error : QueryError} (h : t.resolve path = .error error) :
    error.category = .notFound := by
  rw [resolve] at h
  split at h
  · obtain rfl := Except.error.inj h
    rfl
  · split at h
    · obtain rfl := Except.error.inj h
      rfl
    · split at h
      · simp at h
      · obtain rfl := Except.error.inj h
        rfl

end Table

namespace Database

variable {db : Database} {c : CatalogDefinition} {k : MemberKind}

lemma resolveSystem_eq_ok_iff {path : String} {s : SpaceSystem} : db.resolveSystem path = .ok s ↔
    (∀ x ∈ path.toList, x = '/') ∧ s = db.root ∨ (∃ x ∈ path.toList, x ≠ '/') ∧
      ∃ ns name id, ReadsAs path ns name ∧ db.systems.lookup? ns name = some ⟨s, id⟩ := by
  simp only [← getD_split?_eq_iff, resolveSystem]
  split
  · next hall =>
    have hslashes : ∀ x ∈ path.toList, x = '/' := by simpa using hall
    have hnone : ¬∃ x ∈ path.toList, x ≠ '/' := by
      rintro ⟨x, hx, hne⟩
      exact hne (hslashes x hx)
    simp [hnone, iff_true_intro hslashes, eq_comm]
  · next hall =>
    have hother : ∃ x ∈ path.toList, x ≠ '/' := by simpa using hall
    have hslashes : ¬∀ x ∈ path.toList, x = '/' := by simpa using hother
    generalize (split? path).getD ("", path) = cut
    obtain ⟨ns, name⟩ := cut
    dsimp only
    cases hl : db.systems.lookup? ns name with
    | none => simp [hslashes, hl]
    | some found =>
      obtain ⟨entity, id⟩ := found
      simp [hslashes, hother, hl]

lemma category_of_resolveSystem {path : String} {error : QueryError}
    (h : db.resolveSystem path = .error error) : error.category = .notFound := by
  rw [resolveSystem] at h
  split at h
  · simp at h
  · dsimp only at h
    split at h
    · simp at h
    · obtain rfl := Except.error.inj h
      rfl

namespace Holds

lemma exists_resolveSystem_self (h : db.Holds c) {s : SpaceSystem} (hs : s ∈ db.systems.sorted)
    (hne : s ≠ db.root) :
    ∃ path, s.qualifiedName = "/" ++ path ∧ db.resolveSystem path = .ok s := by
  rcases h.mem_systems.1 hs with rfl | ⟨parent, d, hp, rfl⟩
  · exact absurd h.root.symm hne
  have hvalid := h.isValid_of_places hp
  obtain ⟨hname, hslash⟩ := isValid_iff.1 hvalid
  obtain ⟨a, ha, rfl⟩ := h.exists_segments hp
  have hown : (d.node (ofSegments a)).IsDeclaredUnder
      ⟨canonicalNamespace (ofSegments a), d.head.name⟩ := ⟨_, rfl, .inl ⟨rfl, rfl⟩⟩
  have hlookup : ∀ ns, canonicalNamespace (ofSegments a) = "/" ++ ns →
      ∃ id, db.systems.lookup? ns d.head.name = some ⟨d.node (ofSegments a), id⟩ := by
    intro ns hns
    rw [hns] at hown
    exact ⟨_, (h.systemsConsistent.lookup?_eq_some_iff h.keyedBy_systems).2
      ⟨_, .slashed hs hown, rfl⟩⟩
  obtain ⟨x, hx⟩ := List.exists_mem_of_ne_nil d.head.name.toList (by simpa using hname)
  have hother : x ≠ '/' := fun he => hslash (he ▸ hx)
  by_cases hroot : a = []
  · -- A system directly below the root has no namespace without the slash.
    subst hroot
    refine ⟨d.head.name, rfl, resolveSystem_eq_ok_iff.2 (.inr ⟨⟨x, hx, hother⟩, ?_⟩)⟩
    obtain ⟨id, hid⟩ := hlookup "" rfl
    exact ⟨_, _, id, .whole (.inl hslash), hid⟩
  · obtain ⟨ns, hne, hns⟩ := exists_ofSegments_eq_append ha hroot
    have hspace : canonicalNamespace (ofSegments a) = "/" ++ ns := by
      rw [canonicalNamespace, if_neg (mt ofSegments_eq_empty_iff.1 hroot), hns]
    obtain ⟨id, hid⟩ := hlookup ns hspace
    refine ⟨ns ++ "/" ++ d.head.name, ?_, resolveSystem_append hvalid hid⟩
    rw [SystemDefinition.qualifiedName_node, qualify_eq_append (ofSegments_ne_slash ha), hns]
    simp [String.append_assoc]

lemma exists_resolve_withoutSlash (h : db.Holds c) {e : Entity k} (he : e ∈ (db.table k).sorted) :
    ∃ path, e.qualifiedName = "/" ++ path ∧
      db.resolve k path = .ok ⟨e, ⟨e.head.name, some e.owner⟩⟩ := by
  obtain ⟨ns, howner, hself⟩ := h.exists_resolve_self he
  refine ⟨_, ?_, hself⟩
  rw [(h.exists_owner_eq he).1, howner]
  simp only [String.append_assoc]

lemma exists_resolve_alias (h : db.Holds c) {e : Entity k} (he : e ∈ (db.table k).sorted)
    {ns name : String} (halias : ⟨name, some ns⟩ ∈ e.head.aliases) (hns : ns ≠ "")
    (hvalid : isValid name) :
    ∃ found, db.resolve k (ns ++ "/" ++ name) = .ok found ∧ (found.entity = e ↔
      ∀ f ∈ (db.table k).sorted, f.IsDeclaredUnder ⟨"/" ++ ns, name⟩ → f = e) := by
  have hown : e.IsDeclaredUnder ⟨ns, name⟩ := .inr halias
  obtain ⟨found, hfound, hiff⟩ :=
    (h.consistent k).exists_lookup?_asWritten (keyedBy_table k) he hown
  exact ⟨found, Table.resolve_append hns hvalid hfound, hiff⟩

lemma exists_resolveSystem_alias (h : db.Holds c) {s : SpaceSystem} (hs : s ∈ db.systems.sorted)
    {ns name : String} (halias : ⟨name, some ns⟩ ∈ s.head.aliases) (hvalid : isValid name) :
    ∃ found, db.resolveSystem (ns ++ "/" ++ name) = .ok found ∧ (found = s ↔
      ∀ t ∈ db.systems.sorted, t.IsDeclaredUnder ⟨"/" ++ ns, name⟩ → t = s) := by
  have hown : s.IsDeclaredUnder ⟨ns, name⟩ :=
    (h.keyedBy_systems s hs _).1 (SpaceSystem.mem_keys_of_mem_aliases halias)
  obtain ⟨found, hfound, hiff⟩ :=
    h.systemsConsistent.exists_lookup?_asWritten h.keyedBy_systems hs hown
  exact ⟨found.entity, resolveSystem_append hvalid hfound, hiff⟩

lemma resolve_eq_ok_iff (h : db.Holds c) {path : String} {e : Entity k} {id : ObjectId} :
    db.resolve k path = .ok ⟨e, id⟩ ↔ ∃ ns name key, SplitsInto path ns name ∧ ns ≠ "" ∧
      (db.table k).FoundUnder Entity.IsDeclaredUnder ns name e key ∧
      id = ⟨key.name, some key.space⟩ := by
  rw [resolve, Table.resolve_eq_ok_iff]
  simp only [(h.consistent k).lookup?_eq_some_iff (keyedBy_table k), exists_and_left]

lemma resolveSystem_eq_ok_iff (h : db.Holds c) {path : String} {s : SpaceSystem} :
    db.resolveSystem path = .ok s ↔ (∀ x ∈ path.toList, x = '/') ∧ s = db.root ∨
      (∃ x ∈ path.toList, x ≠ '/') ∧ ∃ ns name key, ReadsAs path ns name ∧
        db.systems.FoundUnder SpaceSystem.IsDeclaredUnder ns name s key := by
  rw [Database.resolveSystem_eq_ok_iff]
  simp only [h.systemsConsistent.lookup?_eq_some_iff h.keyedBy_systems]
  refine or_congr_right (and_congr_right fun _ => ⟨?_, ?_⟩)
  · rintro ⟨ns, name, _, hreads, key, hfound, -⟩
    exact ⟨ns, name, key, hreads, hfound⟩
  · rintro ⟨ns, name, key, hreads, hfound⟩
    exact ⟨ns, name, _, hreads, key, hfound, rfl⟩

end Holds

/-- A path leads to a member just if it is made of a namespace and a name under which the member is
found, and so does the path of a space system, where slashes alone lead to the root and the namespace
may be missing; every other path is said to lead nowhere. So without its slash in front a qualified
name leads to its own entity, whatever the aliases, and an alias does if no other entity is declared
under its namespace with a slash in front. -/
theorem paths_resolve_exactly (hb : build c = .ok db) :
    (∀ k path, (∀ e id, db.resolve k path = .ok ⟨e, id⟩ ↔ ∃ ns name key,
        SplitsInto path ns name ∧ ns ≠ "" ∧
        (db.table k).FoundUnder Entity.IsDeclaredUnder ns name e key ∧
        id = ⟨key.name, some key.space⟩) ∧
      ∀ error, db.resolve k path = .error error → error.category = .notFound) ∧
    (∀ path, (∀ s, db.resolveSystem path = .ok s ↔ (∀ x ∈ path.toList, x = '/') ∧ s = db.root ∨
        (∃ x ∈ path.toList, x ≠ '/') ∧ ∃ ns name key, ReadsAs path ns name ∧
          db.systems.FoundUnder SpaceSystem.IsDeclaredUnder ns name s key) ∧
      ∀ error, db.resolveSystem path = .error error → error.category = .notFound) ∧
    (∀ k, ∀ e ∈ (db.table k).sorted, (∃ path, e.qualifiedName = "/" ++ path ∧
        db.resolve k path = .ok ⟨e, ⟨e.head.name, some e.owner⟩⟩) ∧
      ∀ ns name, ⟨name, some ns⟩ ∈ e.head.aliases → ns ≠ "" → isValid name →
        ∃ found, db.resolve k (ns ++ "/" ++ name) = .ok found ∧ (found.entity = e ↔
          ∀ f ∈ (db.table k).sorted, f.IsDeclaredUnder ⟨"/" ++ ns, name⟩ → f = e)) ∧
    ∀ s ∈ db.systems.sorted, (s ≠ db.root → ∃ path, s.qualifiedName = "/" ++ path ∧
        db.resolveSystem path = .ok s) ∧
      ∀ ns name, ⟨name, some ns⟩ ∈ s.head.aliases → isValid name →
        ∃ found, db.resolveSystem (ns ++ "/" ++ name) = .ok found ∧ (found = s ↔
          ∀ t ∈ db.systems.sorted, t.IsDeclaredUnder ⟨"/" ++ ns, name⟩ → t = s) := by
  have h := holds_of_build hb
  refine ⟨fun k path => ⟨fun e id => ?_, fun error herror => ?_⟩,
    fun path => ⟨fun s => ?_, fun error herror => ?_⟩,
    fun k e he => ⟨?_, fun ns name halias hns hvalid => ?_⟩,
    fun s hs => ⟨fun hne => ?_, fun ns name halias hvalid => ?_⟩⟩
  · exact h.resolve_eq_ok_iff
  · exact Table.category_of_resolve herror
  · exact h.resolveSystem_eq_ok_iff
  · exact category_of_resolveSystem herror
  · exact h.exists_resolve_withoutSlash he
  · exact h.exists_resolve_alias he halias hns hvalid
  · exact h.exists_resolveSystem_self hs hne
  · exact h.exists_resolveSystem_alias hs halias hvalid

/-- `P` has the path `S/P`, but the path `/S/P` belongs to the alias of `Q`, which is found there by
the namespace with one more slash. -/
theorem paths_resolve_exactly_awkward : ∃ db, build awkwardCatalog = .ok db ∧
    (∃ e id, db.resolve .parameter "S/P" = .ok ⟨e, id⟩ ∧ e.qualifiedName = "/S/P") ∧
    ∃ e ∈ (db.table .parameter).sorted, e.qualifiedName = "/S/Q" ∧
      db.resolve .parameter "/S/P" = .ok ⟨e, ⟨"P", some "//S"⟩⟩ := by
  obtain ⟨db, hb⟩ := exists_build_awkwardCatalog
  obtain ⟨hexact, -, hmembers, -⟩ := paths_resolve_exactly hb
  have hrows : (∃ p ∈ (db.table .parameter).sorted, p.qualifiedName = "/S/P") ∧
      ∃ q ∈ (db.table .parameter).sorted, q.qualifiedName = "/S/Q" ∧
        ⟨"P", some "//S"⟩ ∈ q.head.aliases := by
    rw [(holds_of_build hb).table_eq]
    decide +kernel
  obtain ⟨⟨p, hp, hpname⟩, q, hq, hqname, halias⟩ := hrows
  refine ⟨db, hb, ?_, q, hq, hqname, ?_⟩
  · obtain ⟨⟨path, hpath, hself⟩, -⟩ := hmembers .parameter p hp
    obtain rfl : path = "S/P" := by
      have hslash : "/" ++ path = "/" ++ "S/P" := hpath.symm.trans hpname
      simpa [← String.toList_inj] using hslash
    exact ⟨p, _, hself, hpname⟩
  · have hparts : SplitsInto "/S/P" "/S" "P" := ⟨rfl, by decide, by decide⟩
    exact ((hexact .parameter "/S/P").1 q _).2
      ⟨"/S", "P", ⟨"//S", "P"⟩, hparts, by decide, .slashed hq (.inr halias), rfl⟩

end Database

end MissionCatalog
