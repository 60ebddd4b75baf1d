import MissionCatalog.Proofs.Database.Acceptance
import MissionCatalog.Proofs.View.Listing

/-!
# What listings do not tell

A listing is made from what the viewer may read, the tree of space systems and the types of parameters.
Databases that agree in these answer every request alike, whatever else they hold: no item, number,
token, child or error tells what the viewer may not read.
-/
namespace MissionCatalog

/-- What the tree knows of a space system: its name, its parent, its children and its keys. -/
def SpaceSystem.place (s : SpaceSystem) : String × Option String × List String × List Key :=
  (s.qualifiedName, s.parent, s.systems, s.keys)

namespace Database

open SpaceSystem (place)

variable {a b db : Database} {c d : CatalogDefinition} {k : MemberKind}

/-- The space systems have the same names, parents and children, and are found under the same keys. -/
structure SameTree (a b : Database) : Prop where
  parent : ∀ name,
    (a.system? name).map SpaceSystem.parent = (b.system? name).map SpaceSystem.parent
  child : ∀ name child,
    (∃ s ∈ a.system? name, child ∈ s.systems) ↔ ∃ s ∈ b.system? name, child ∈ s.systems
  key : ∀ key, (a.systems.getByKey? key).map SpaceSystem.qualifiedName =
    (b.systems.getByKey? key).map SpaceSystem.qualifiedName

/-- Space systems of one name offer the same children, whatever the candidates are. -/
def OffersSame (rule : ChildRule) (k : MemberKind) (a b : Database) : Prop :=
  ∀ ⦃s t : SpaceSystem⦄, s ∈ a.systems.sorted → t ∈ b.systems.sorted →
    s.qualifiedName = t.qualifiedName → ∀ entities : List (Entity k),
      a.offered rule entities s = b.offered rule entities t

namespace Holds

variable (h : db.Holds c) (place : String × Option String × List String × List Key)

include h

lemma map_system?_eq_some_iff {name : String} :
    (db.system? name).map SpaceSystem.place = some place ↔
      place ∈ db.systems.sorted.map SpaceSystem.place ∧ place.1 = name := by
  simp only [Option.map_eq_some_iff, h.system?_eq_some_iff, List.mem_map]
  constructor
  · rintro ⟨s, ⟨hs, rfl⟩, rfl⟩
    exact ⟨⟨s, hs, rfl⟩, rfl⟩
  · rintro ⟨⟨s, hs, rfl⟩, rfl⟩
    exact ⟨s, ⟨hs, rfl⟩, rfl⟩

lemma map_getByKey?_eq_some_iff {key : Key} :
    (db.systems.getByKey? key).map SpaceSystem.place = some place ↔
      place ∈ db.systems.sorted.map SpaceSystem.place ∧ key ∈ place.2.2.2 := by
  simp only [Option.map_eq_some_iff, h.systemsConsistent.getByKey?_eq_some_iff, List.mem_map]
  constructor
  · rintro ⟨s, ⟨hs, hkey⟩, rfl⟩
    exact ⟨⟨s, hs, rfl⟩, hkey⟩
  · rintro ⟨⟨s, hs, rfl⟩, hkey⟩
    exact ⟨s, ⟨hs, hkey⟩, rfl⟩

end Holds

lemma SameTree.of_map_eq (ha : a.Holds c) (hb : b.Holds d)
    (h : a.systems.sorted.map place = b.systems.sorted.map place) : a.SameTree b := by
  have hget : ∀ name, (a.system? name).map place = (b.system? name).map place := by
    intro name
    ext x
    rw [ha.map_system?_eq_some_iff, hb.map_system?_eq_some_iff, h]
  refine ⟨fun name => ?_, fun name child => ?_, fun key => ?_⟩
  · simpa [place, Function.comp_def] using congrArg (Option.map (·.2.1)) (hget name)
  · have hchildren : (a.system? name).map SpaceSystem.systems =
        (b.system? name).map SpaceSystem.systems := by
      simpa [place, Function.comp_def] using congrArg (Option.map (·.2.2.1)) (hget name)
    have hiff : ∀ db : Database, (∃ s ∈ db.system? name, child ∈ s.systems) ↔
        ∃ systems ∈ (db.system? name).map SpaceSystem.systems, child ∈ systems := by
      intro db
      simp
    rw [hiff, hiff, hchildren]
  · have hkey : (a.systems.getByKey? key).map place = (b.systems.getByKey? key).map place := by
      ext x
      rw [ha.map_getByKey?_eq_some_iff, hb.map_getByKey?_eq_some_iff, h]
    simpa [place, Function.comp_def] using congrArg (Option.map (·.1)) hkey

lemma Holds.offered_eq (h : db.Holds c) (entities : List (Entity k)) (s : SpaceSystem) :
    db.offered .withCandidates entities s = (s.systems.filter fun name =>
      (db.system? name).isSome && entities.any (·.isWithin name)).mergeSort := by
  rw [offered]
  congr 1
  induction s.systems with
  | nil => rfl
  | cons name names ih =>
    cases hs : db.system? name with
    | none => simp [hs, ih]
    | some t =>
      have hname := (h.system?_eq_some_iff.1 hs).2
      by_cases hin : entities.any (·.isWithin name) <;> simp [hs, isOffered, hname, hin, ih]

lemma SameTree.lookup?_eq (h : a.SameTree b) (ns name : String) :
    (a.systems.lookup? ns name).map (·.entity.qualifiedName) =
      (b.systems.lookup? ns name).map (·.entity.qualifiedName) := by
  have hfind : ∀ db : Database, (db.systems.lookup? ns name).map (·.entity.qualifiedName) =
      (Key.candidates ns name).findSome? fun key =>
        (db.systems.getByKey? key).map SpaceSystem.qualifiedName := by
    intro db
    simp [Table.lookup?, List.map_findSome?, Function.comp_def]
  rw [hfind, hfind]
  simp only [h.key]

/-- A path leads to space systems of one name, or nowhere for the same reason. -/
lemma SameTree.resolveSystem_eq (h : a.SameTree b) (ha : a.Holds c) (hb : b.Holds d)
    (path : String) : (a.resolveSystem path).map SpaceSystem.qualifiedName =
      (b.resolveSystem path).map SpaceSystem.qualifiedName := by
  have hroot : a.root.qualifiedName = b.root.qualifiedName := by
    rw [ha.root, hb.root]
    rfl
  rw [resolveSystem, resolveSystem]
  split
  · exact congrArg Except.ok hroot
  · obtain ⟨ns, name⟩ := (Name.split? path).getD ("", path)
    have hl := h.lookup?_eq ns name
    dsimp only
    cases hs : a.systems.lookup? ns name with
    | none =>
      rw [hs, Option.map_none, eq_comm, Option.map_eq_none_iff] at hl
      rw [hl]
    | some found =>
      rw [hs, Option.map_some, eq_comm, Option.map_eq_some_iff] at hl
      obtain ⟨found', hf, hname⟩ := hl
      rw [hf]
      exact congrArg Except.ok hname.symm

lemma SameTree.perm_children (h : a.SameTree b) (ha : build c = .ok a) (hb : build d = .ok b)
    {s t : SpaceSystem} (hs : s ∈ a.systems.sorted) (ht : t ∈ b.systems.sorted)
    (hname : s.qualifiedName = t.qualifiedName) : s.systems.Perm t.systems := by
  have hsa : a.system? t.qualifiedName = some s :=
    (holds_of_build ha).system?_eq_some_iff.2 ⟨hs, hname⟩
  have htb : b.system? t.qualifiedName = some t :=
    (holds_of_build hb).system?_eq_some_iff.2 ⟨ht, rfl⟩
  refine (List.perm_ext_iff_of_nodup (nodup_children ha hs) (nodup_children hb ht)).2 ?_
  intro child
  have hchild := h.child t.qualifiedName child
  simpa [hsa, htb] using hchild

lemma SameTree.offersSame (h : a.SameTree b) (ha : build c = .ok a) (hb : build d = .ok b) :
    OffersSame .withCandidates k a b := by
  intro s t hs ht hname entities
  have hsome : ∀ name, (a.system? name).isSome = (b.system? name).isSome := by
    intro name
    have hparent := congrArg Option.isSome (h.parent name)
    rwa [Option.isSome_map, Option.isSome_map] at hparent
  -- The children may be listed in another order, but they are offered sorted.
  rw [(holds_of_build ha).offered_eq, (holds_of_build hb).offered_eq]
  simp only [hsome]
  exact mergeSort_eq_of_perm ((h.perm_children ha hb hs ht hname).filter _)

end Database

/-- The viewer may read the same members of a kind in both databases. -/
def Viewer.ReadsSame (viewer : Viewer) (k : MemberKind) (a b : Database) : Prop :=
  ∀ e : Entity k, viewer.hasAccess k e.qualifiedName →
    (e ∈ (a.table k).sorted ↔ e ∈ (b.table k).sorted)

lemma Viewer.ReadsSame.of_filter_eq {viewer : Viewer} {k : MemberKind} {a b : Database}
    (h : (a.table k).sorted.filter (fun e => viewer.hasAccess k e.qualifiedName) =
      (b.table k).sorted.filter fun e => viewer.hasAccess k e.qualifiedName) :
    viewer.ReadsSame k a b := by
  intro e he
  have hfilter : ∀ rows : List (Entity k),
      e ∈ rows ↔ e ∈ rows.filter fun e => viewer.hasAccess k e.qualifiedName := by
    intro rows
    rw [List.mem_filter, and_iff_left he]
  rw [hfilter, h, ← hfilter]

namespace View

variable {a b : Database} {c d : CatalogDefinition} {k : MemberKind} {viewer : Viewer} {limit : ℕ}

lemma isListing_readable {v : View} (h : v.db.Holds c) (k : MemberKind) :
    IsListing (fun e : Entity k => e ∈ (v.db.table k).sorted ∧ v.viewer.hasAccess k e.qualifiedName)
      (v.readable k) where
  mem _ := mem_readable
  increasing := (h.consistent k).increasing_sorted.sublist List.filter_sublist

lemma readable_eq (ha : a.Holds c) (hb : b.Holds d) (hreads : viewer.ReadsSame k a b) (limit : ℕ) :
    (mk a viewer limit).readable k = (mk b viewer limit).readable k := by
  refine (isListing_readable (v := mk a viewer limit) ha k).unique
    (isListing_readable (v := mk b viewer limit) hb k) fun e => ?_
  exact and_congr_left (hreads e)

lemma candidates_eq (ha : a.Holds c) (hb : b.Holds d) (tree : a.SameTree b) {rule : ChildRule}
    (hoffers : Database.OffersSame rule k a b) (hreads : viewer.ReadsSame k a b) (r : ListRequest)
    (keep : Entity k → Bool) :
    (mk a viewer limit).candidates r rule keep = (mk b viewer limit).candidates r rule keep := by
  have hreadable := readable_eq ha hb hreads limit
  rw [candidates, candidates]
  cases hsys : r.system with
  | none => simp [Database.scope, Database.restrict, hreadable]
  | some system =>
    have hresolve := tree.resolveSystem_eq ha hb (scopePath system)
    cases hs : a.resolveSystem (scopePath system) with
    | error e =>
      cases ht : b.resolveSystem (scopePath system) with
      | error e' => simp [Database.scope, hs, ht]
      | ok t => simp [hs, ht, Except.map] at hresolve
    | ok s =>
      cases ht : b.resolveSystem (scopePath system) with
      | error e' => simp [hs, ht, Except.map] at hresolve
      | ok t =>
        have hname : s.qualifiedName = t.qualifiedName := by
          simpa [hs, ht, Except.map] using hresolve
        have hoffered := hoffers (ha.mem_systems_of_resolveSystem hs)
          (hb.mem_systems_of_resolveSystem ht) hname ((mk b viewer limit).readable k)
        simp [Database.scope, hs, ht, Database.restrict, hreadable, hname, hoffered]

lemma found_eq_of_offersSame (ha : a.Holds c) (hb : b.Holds d) (tree : a.SameTree b)
    {rule : ChildRule} (hoffers : Database.OffersSame rule k a b)
    (hreads : viewer.ReadsSame k a b) (limit : ℕ) (r : ListRequest) (keep : Entity k → Bool) :
    (mk a viewer limit).found r rule keep = (mk b viewer limit).found r rule keep := by
  rw [found, found, candidates_eq ha hb tree hoffers hreads]

lemma found_eq (ha : Database.build c = .ok a) (hb : Database.build d = .ok b)
    (tree : a.SameTree b) (hreads : viewer.ReadsSame k a b) (limit : ℕ) (r : ListRequest)
    (keep : Entity k → Bool) :
    (mk a viewer limit).found r .withCandidates keep =
      (mk b viewer limit).found r .withCandidates keep :=
  found_eq_of_offersSame (Database.holds_of_build ha) (Database.holds_of_build hb) tree
    (tree.offersSame ha hb) hreads limit r keep

lemma typeOf?_eq (ha : a.Holds c) (hb : b.Holds d)
    (types : ∀ t, t ∈ (a.table .parameterType).sorted ↔ t ∈ (b.table .parameterType).sorted)
    (p : Parameter) : a.typeOf? p = b.typeOf? p := by
  rw [Database.typeOf?, Database.typeOf?,
    (ha.consistent .parameterType).get?_eq (hb.consistent .parameterType) types]

lemma foundParameters_eq (ha : Database.build c = .ok a) (hb : Database.build d = .ok b)
    (tree : a.SameTree b) (hreads : viewer.ReadsSame .parameter a b)
    (types : ∀ t, t ∈ (a.table .parameterType).sorted ↔ t ∈ (b.table .parameterType).sorted)
    (r : ParameterRequest) :
    (mk a viewer limit).foundParameters r = (mk b viewer limit).foundParameters r := by
  have hha := Database.holds_of_build ha
  have hhb := Database.holds_of_build hb
  have htype := typeOf?_eq hha hhb types
  have hpasses : (mk a viewer limit).passes r = (mk b viewer limit).passes r := by
    funext p
    rw [passes, passes, htype]
  have hmembers : (mk a viewer limit).foundMembers r.list.matcher =
      (mk b viewer limit).foundMembers r.list.matcher := by
    funext p
    rw [foundMembers, foundMembers, htype]
  rw [foundParameters, foundParameters, hpasses, hmembers,
    candidates_eq hha hhb tree (tree.offersSame ha hb) hreads]

/-- Two databases with the same tree answer all requests for a listing alike, if the viewer may read
the same in both; for parameters their types have to be the same as well. -/
theorem listings_of_readsSame (ha : Database.build c = .ok a) (hb : Database.build d = .ok b)
    (tree : a.SameTree b) :
    ((∀ t, t ∈ (a.table .parameterType).sorted ↔ t ∈ (b.table .parameterType).sorted) →
      viewer.ReadsSame .parameter a b → ∀ r,
      (mk a viewer limit).listParameters r = (mk b viewer limit).listParameters r) ∧
    (viewer.ReadsSame .command a b → ∀ r,
      (mk a viewer limit).listCommands r = (mk b viewer limit).listCommands r) ∧
    (viewer.ReadsSame .algorithm a b → ∀ r,
      (mk a viewer limit).listAlgorithms r = (mk b viewer limit).listAlgorithms r) := by
  refine ⟨fun types hreads r => ?_, fun hreads r => ?_, fun hreads r => ?_⟩
  · rw [listParameters, listParameters, foundParameters_eq ha hb tree hreads types]
    rfl
  · have hfound := found_eq ha hb tree hreads limit r.list
    rw [listCommands, listCommands, foundCommands, foundCommands, hfound]
    rfl
  · have hfound := found_eq ha hb tree hreads limit r.list
    rw [listAlgorithms, listAlgorithms, foundAlgorithms, foundAlgorithms, hfound]
    rfl

end View

def hiddenCatalog (hidden : String) : CatalogDefinition where
  name := "hidden"
  version := none
  systems := [{
    head := ⟨"S", none, none, []⟩
    version := none
    parameterTypes := []
    parameters := [⟨⟨"P", none, none, []⟩, ⟨none, none⟩⟩]
    containers := []
    commands := []
    algorithms := []
    systems := [⟨⟨"A", none, none, []⟩, none, [],
      [⟨⟨hidden, none, none, []⟩, ⟨none, none⟩⟩], [], [], [], []⟩] }]

/-- A user who may read nothing but `P`. -/
def guest : Viewer := ⟨"guest", false, fun _ name => name = "/S/P"⟩

lemma exists_build_hiddenCatalog : ∃ db, Database.build (hiddenCatalog "H") = .ok db :=
  CatalogDefinition.exists_build_iff_passes.2 (by decide +kernel)

theorem View.listings_of_readsSame_hidden : ∃ a b, Database.build (hiddenCatalog "H") = .ok a ∧
    Database.build (hiddenCatalog "J") = .ok b ∧
    (∃ p ∈ (a.table .parameter).sorted, ∀ q ∈ (b.table .parameter).sorted,
      p.qualifiedName ≠ q.qualifiedName) ∧
    ∀ r, (View.mk a guest 100).listParameters r = (View.mk b guest 100).listParameters r := by
  have hbuild : ∀ hidden ∈ ["H", "J"], ∃ db, Database.build (hiddenCatalog hidden) = .ok db := by
    simp only [CatalogDefinition.exists_build_iff_passes]
    decide +kernel
  obtain ⟨a, ha⟩ := hbuild "H" (by simp)
  obtain ⟨b, hb⟩ := hbuild "J" (by simp)
  have hha := Database.holds_of_build ha
  have hhb := Database.holds_of_build hb
  have htree : a.SameTree b := by
    refine .of_map_eq hha hhb ?_
    rw [hha.systems_eq, hhb.systems_eq]
    decide +kernel
  have htypes : ∀ t, t ∈ (a.table .parameterType).sorted ↔ t ∈ (b.table .parameterType).sorted := by
    intro t
    rw [hha.table_eq, hhb.table_eq]
    rfl
  have hreads : guest.ReadsSame .parameter a b := by
    refine .of_filter_eq ?_
    rw [hha.table_eq, hhb.table_eq]
    rfl
  refine ⟨a, b, ha, hb, ?_, (listings_of_readsSame ha hb htree).1 htypes hreads⟩
  rw [hha.table_eq, hhb.table_eq]
  decide +kernel

end MissionCatalog
