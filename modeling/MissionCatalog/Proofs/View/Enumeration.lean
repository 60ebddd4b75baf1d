import MissionCatalog.Proofs.Page.Enumeration
import MissionCatalog.Proofs.View.Listing

/-!
# Listings page after page

A walk through a listing of entities shows each of them once, in the order of their names. With a
search for members the same holds just if no two members found in one parameter have paths that read
the same.
-/
namespace MissionCatalog.View
open Page

variable {v : View} {limits : ℕ → ℕ}

/-- Where items are shown under their names, the walk shows the listing as it is. -/
lemma exists_exhausts_listing {α β : Type} [Declared α] {P : α → Prop} {items : List α}
    (h : IsListing P items) {key : β → PageKey} {f : α → β}
    (hk : ∀ a, key (f a) = ⟨Declared.qualifiedName a, none⟩) (hl : ∀ i, 0 < limits i)
    (result : Scoped β) (hr : result.items = items.map f) :
    ∃ pages, Exhausts (asking (fun page => v.page key page result) limits) limits items.length
        pages ∧ shown pages = items.map f := by
  have hi : Increasing key result.items := hr ▸ h.increasing_map hk
  obtain ⟨pages, he, hp⟩ := exists_exhausts v key hl result
  rw [hi.sorted.sort_eq] at hp
  have hlen : result.items.length = items.length := by rw [hr, List.length_map]
  exact ⟨pages, hlen ▸ he, (hp.all hi.nodup).trans hr⟩

/-- Asked for page after page with the limits, the listing shows just the entities with the
property, in ascending order of their names. -/
def Enumerates {α : Type} [Declared α] (list : PageRequest → Except QueryError (Page α))
    (limits : ℕ → ℕ) (P : α → Prop) : Prop :=
  ∃ items pages, IsListing P items ∧ Exhausts (asking list limits) limits items.length pages ∧
    shown pages = items

lemma enumerates_listing {α : Type} [Declared α] {P : α → Prop} {result : Scoped α}
    (h : IsListing P result.items) {key : α → PageKey}
    (hk : ∀ a, key a = ⟨Declared.qualifiedName a, none⟩) (hl : ∀ i, 0 < limits i) :
    Enumerates (fun page => v.page key page result) limits P := by
  obtain ⟨pages, he, hs⟩ := exists_exhausts_listing (v := v) (f := id) h hk hl
    result (List.map_id result.items).symm
  exact ⟨_, pages, h, he, by simpa using hs⟩

/-- Every listing without a search for members can be walked through with any positive limits. The
walk ends; its pages are full but for the last, agree in what they report, and show all that the
request asks for, each item once and in the order of the names. -/
theorem listings_enumerated {d : CatalogDefinition} (built : Database.build d = .ok v.db)
    (positive : ∀ i, 0 < limits i) :
    (∀ r : ListRequest, Enumerates (fun page => v.listContainers { r with page }) limits
      (v.IsListed r fun _ => True)) ∧
    (∀ r : CommandRequest,
      Enumerates (fun page => v.listCommands { r with list := { r.list with page } }) limits
        (v.IsListed r.list r.Keeps)) ∧
    (∀ r : AlgorithmRequest,
      Enumerates (fun page => v.listAlgorithms { r with list := { r.list with page } }) limits
        (v.IsListed r.list r.Keeps)) ∧
    (∀ query, v.viewer.readsCatalog →
      Enumerates (v.listSystems query) limits (v.IsListedSystem query)) ∧
    ∀ r : ParameterRequest, r.searchMembers = false → ∃ items pages,
      IsListing (v.IsListed r.list (r.Keeps v.db)) items ∧
      Exhausts (asking (fun page =>
        v.listParameters { r with list := { r.list with page } }) limits) limits items.length
          pages ∧
      shown pages = items.map (⟨·, none⟩) := by
  have h := Database.holds_of_build built
  refine ⟨fun r => ?_, fun r => ?_, fun r => ?_, fun query hc => ?_, fun r hs => ?_⟩
  · simp only [listContainers_page]
    exact enumerates_listing (isListing_foundContainers h r) (fun _ => rfl) positive
  · simp only [listCommands_page]
    exact enumerates_listing (isListing_foundCommands h r) (fun _ => rfl) positive
  · simp only [listAlgorithms_page]
    exact enumerates_listing (isListing_foundAlgorithms h r) (fun _ => rfl) positive
  · have hlist : v.listSystems query = fun page =>
        v.page SpaceSystem.pageKey page (v.foundSystems query) := by
      funext page
      rw [listSystems, requireCatalog, if_pos hc]
      rfl
    rw [hlist]
    exact enumerates_listing (isListing_foundSystems h query) (fun _ => rfl) positive
  · simp only [listParameters_page]
    obtain ⟨listed, hl, hitems⟩ := exists_isListing_foundParameters h hs
    have hkey : ∀ p : Parameter,
        ParameterMatch.pageKey ⟨p, none⟩ = ⟨Declared.qualifiedName p, none⟩ := fun _ => rfl
    obtain ⟨pages, he, hp⟩ := exists_exhausts_listing (v := v) hl hkey positive
      (v.foundParameters r) hitems
    exact ⟨_, pages, hl, he, hp⟩

/-- The parameters are declared in another order than that of their names. -/
def lettersCatalog : CatalogDefinition where
  name := "letters"
  version := none
  systems := [{
    head := ⟨"S", none, none, []⟩
    version := none
    parameterTypes := []
    parameters := [⟨⟨"b", none, none, []⟩, ⟨none, none⟩⟩, ⟨⟨"é", none, none, []⟩, ⟨none, none⟩⟩,
      ⟨⟨"a", none, none, []⟩, ⟨none, none⟩⟩]
    containers := []
    commands := []
    algorithms := []
    systems := [{
      head := ⟨"T", none, none, []⟩
      version := none
      parameterTypes := []
      parameters := [⟨⟨"a", none, none, []⟩, ⟨none, none⟩⟩]
      containers := []
      commands := []
      algorithms := []
      systems := [] }] }]

def allParameters : ParameterRequest := ⟨⟨none, none, .first⟩, [], none, false⟩

/-- One after the other, with a token for each step. -/
theorem listings_enumerated_letters : ∃ db pages, Database.build lettersCatalog = .ok db ∧
    Exhausts (asking (fun page => (dottedView db).listParameters
      { allParameters with list := { allParameters.list with page } }) fun _ => 1) (fun _ => 1) 4
        pages ∧
    (shown pages).map ParameterMatch.text = ["/S/T/a", "/S/a", "/S/b", "/S/é"] := by
  have hany : (Database.build lettersCatalog).toOption.any fun db =>
      ((dottedView db).foundParameters allParameters).items.map ParameterMatch.text =
        ["/S/T/a", "/S/a", "/S/b", "/S/é"] := by decide +kernel
  simp only [Option.any_eq_true, toOption_eq_some_iff, decide_eq_true_eq] at hany
  obtain ⟨db, built, htexts⟩ := hany
  have positive : ∀ i, 0 < (fun _ : ℕ => 1) i := fun _ => one_pos
  obtain ⟨-, -, -, -, hp⟩ := listings_enumerated (v := dottedView db) built positive
  obtain ⟨items, pages, hlisted, hexhausts, hshown⟩ := hp allParameters rfl
  obtain ⟨_, hfound, hitems⟩ := exists_isListing_foundParameters (v := dottedView db)
    (Database.holds_of_build built) (r := allParameters) rfl
  rw [hfound.unique hlisted fun _ => .rfl, ← hshown] at hitems
  rw [hitems] at htexts
  have hlength : items.length = 4 := by simpa [hshown] using congrArg List.length htexts
  exact ⟨db, pages, built, hlength ▸ hexhausts, htexts⟩

/-- The texts of the paths to the members that the query finds in a parameter. -/
def memberTexts (v : View) (r : ListRequest) (p : Parameter) : List String :=
  match v.db.typeOf? p with
  | some t => (r.matcher.membersOf t.details.dataType).map MemberPath.text
  | none => []

lemma map_pageKey_foundMembers (r : ListRequest) (p : Parameter) :
    (v.foundMembers r.matcher p).map ParameterMatch.pageKey =
      (v.memberTexts r p).map fun text => ⟨p.qualifiedName, some text⟩ := by
  rw [foundMembers, memberTexts]
  cases v.db.typeOf? p with
  | none => rfl
  | some t => simp [ParameterMatch.pageKey, Function.comp_def]

lemma eq_of_mem_memberKeys {r : ListRequest} {p : Parameter} {key : PageKey}
    (h : key ∈ (v.foundMembers r.matcher p).map ParameterMatch.pageKey) :
    ∃ text, key = ⟨p.qualifiedName, some text⟩ := by
  rw [map_pageKey_foundMembers, List.mem_map] at h
  obtain ⟨text, -, rfl⟩ := h
  exact ⟨text, rfl⟩

lemma nodup_memberKeys_iff (r : ListRequest) (p : Parameter) :
    ((v.foundMembers r.matcher p).map ParameterMatch.pageKey).Nodup ↔
      (v.memberTexts r p).Nodup := by
  rw [map_pageKey_foundMembers, List.nodup_map_iff]
  intro a b hab
  simpa using hab

/-- Parameters keep the keys of their members apart: only members of one parameter can share one. -/
lemma nodup_flatMap_memberKeys_iff {P : Parameter → Prop} {candidates : List Parameter}
    (hc : IsListing P candidates) (r : ListRequest) :
    (candidates.flatMap fun p => (v.foundMembers r.matcher p).map ParameterMatch.pageKey).Nodup ↔
      ∀ p ∈ candidates, (v.memberTexts r p).Nodup := by
  rw [List.nodup_flatMap]
  simp only [nodup_memberKeys_iff, and_iff_left_iff_imp]
  intro _
  refine hc.increasing.imp fun {p q} hpq => ?_
  intro key hp hq
  obtain ⟨_, rfl⟩ := eq_of_mem_memberKeys hp
  obtain ⟨_, hkey⟩ := eq_of_mem_memberKeys hq
  exact hpq.ne (congrArg PageKey.name hkey)

lemma nodup_keys_iff {P Q : Parameter → Prop} {listed candidates : List Parameter}
    (hl : IsListing P listed) (hc : IsListing Q candidates) (r : ListRequest) :
    ((listed.map (fun p => (⟨p, none⟩ : ParameterMatch)) ++
        candidates.flatMap (v.foundMembers r.matcher)).map ParameterMatch.pageKey).Nodup ↔
      ∀ p ∈ candidates, (v.memberTexts r p).Nodup := by
  have hwhole : ((listed.map fun p => (⟨p, none⟩ : ParameterMatch)).map
      ParameterMatch.pageKey).Nodup := (hl.increasing_map fun _ => rfl).nodup
  have hdisjoint : ((listed.map fun p => (⟨p, none⟩ : ParameterMatch)).map
      ParameterMatch.pageKey).Disjoint (candidates.flatMap fun p =>
        (v.foundMembers r.matcher p).map ParameterMatch.pageKey) := by
    intro key hw hm
    obtain ⟨p, -, hp⟩ := List.mem_flatMap.1 hm
    obtain ⟨_, rfl⟩ := eq_of_mem_memberKeys hp
    simp [ParameterMatch.pageKey] at hw
  rw [List.map_append, List.map_flatMap, List.nodup_append', nodup_flatMap_memberKeys_iff hc]
  simp only [hwhole, hdisjoint, true_and, and_true]

/-- A walk with a search for members ends, and shows nothing but matches and every key of a match.
It shows every match, and in strict order, just if in no candidate two of the paths to members that
the query finds read the same: of matches with one key, a page that ends between them loses the
rest. -/
theorem member_search_enumerated_iff {d : CatalogDefinition} (built : Database.build d = .ok v.db)
    (positive : ∀ i, 0 < limits i) {r : ParameterRequest} (searched : r.searchMembers) :
    ∃ found pages, v.AreMatches r found ∧
      Exhausts (asking (fun page =>
        v.listParameters { r with list := { r.list with page } }) limits) limits found.length
          pages ∧
      (shown pages).Subperm found ∧
      (∀ m ∈ found, m.pageKey ∈ (shown pages).map ParameterMatch.pageKey) ∧
      ((shown pages).Perm found ∧ Increasing ParameterMatch.pageKey (shown pages) ↔
        ∀ p, v.IsCandidate r.list (r.Keeps v.db) p → (v.memberTexts r.list p).Nodup) := by
  have h := Database.holds_of_build built
  have hc := isListing_parameterCandidates h r
  obtain ⟨pages, he, hp⟩ := exists_exhausts v ParameterMatch.pageKey positive (v.foundParameters r)
  simp only [listParameters_page]
  refine ⟨_, pages, areMatches_foundParameters h r, he, ?_, ?_, ?_⟩
  · exact hp.sublist.subperm.trans (sort_perm _ _).subperm
  · exact fun m hm => hp.keys m (mem_sort.2 hm)
  · rw [hp.perm_and_increasing_iff]
    have hkeys := nodup_keys_iff (v := v) (isListing_filter_inHead hc) hc r.list
    simp only [hc.mem] at hkeys
    simpa only [foundParameters, searched, if_true] using hkeys

/-- Both members `b` of the parameter have the path `.a.b`. -/
theorem member_search_dotted : ∃ db, Database.build dottedCatalog = .ok db ∧ ∃ found pages,
    (dottedView db).AreMatches dottedSearch found ∧
    Exhausts (asking (fun page => (dottedView db).listParameters
      { dottedSearch with list := { dottedSearch.list with page } }) fun _ => 1) (fun _ => 1)
        found.length pages ∧
    ¬((shown pages).Perm found ∧ Increasing ParameterMatch.pageKey (shown pages)) := by
  have hany : (Database.build dottedCatalog).toOption.any fun db =>
      (db.table .parameter).sorted.any fun p =>
        (dottedView db).memberTexts dottedSearch.list p = [".a.b", ".a.b"] := by decide +kernel
  obtain ⟨db, built⟩ := exists_build_dottedCatalog
  obtain ⟨p, hp, htexts⟩ : ∃ p ∈ (db.table .parameter).sorted,
      (dottedView db).memberTexts dottedSearch.list p = [".a.b", ".a.b"] := by
    simpa [built, Except.toOption] using hany
  have hcand : (dottedView db).IsCandidate dottedSearch.list (dottedSearch.Keeps db) p :=
    ⟨hp, by simp [dottedView, Viewer.hasAccess], by simp [InScope, dottedSearch],
      by simp [dottedSearch], by simp [dottedSearch]⟩
  obtain ⟨found, pages, hm, he, -, -, hiff⟩ := member_search_enumerated_iff (v := dottedView db)
    (r := dottedSearch) built (fun _ => one_pos) rfl
  refine ⟨db, built, found, pages, hm, he, fun hall => ?_⟩
  have hd := hiff.1 hall p hcand
  rw [htexts] at hd
  simp at hd

end MissionCatalog.View
