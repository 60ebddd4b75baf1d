import MissionCatalog.Proofs.View.Listing

/-!
# What single pages show

Every page of a listing shows some of its items, so it never shows what the user may not read. A
page asked for from the start, with room for all items, shows them all.
-/
namespace MissionCatalog

/-- The pages are taken from the items: whatever is asked for, a page shows some of them in their
order and reports their number, and one that has room for them all shows them all. -/
structure Page.AnswersFrom {α : Type} (list : PageRequest → Except QueryError (Page α))
    (default : ℕ) (items : List α) : Prop where
  part : ∀ {request page}, list request = .ok page →
    page.totalSize = items.length ∧ page.items.Sublist items
  whole : ∀ {request}, request.pos = none → request.next = none →
    0 < request.limit.getD default → items.length ≤ request.limit.getD default →
    ∃ page, list request = .ok page ∧ page.items = items ∧ page.token = none

namespace View

variable {v : View} {α : Type} {key : α → PageKey}

lemma answersFrom_page (v : View) (key : α → PageKey) (found : Scoped α) :
    Page.AnswersFrom (fun r => v.page key r found) v.defaultLimit (Page.sort key found.items) where
  part {request page} h := by
    obtain ⟨cut, hc, rfl⟩ := map_eq_ok.1 h
    have hs := Page.sublist_of_build hc
    rw [Page.length_sort]
    exact hs
  whole hpos hnext hlimit hlen := by
    rw [Page.length_sort] at hlen
    rw [page, Page.build_whole hpos hnext hlimit hlen]
    exact ⟨_, rfl, rfl, rfl⟩

lemma answersFrom_listing [Declared α] {P : α → Prop} {found : Scoped α}
    (h : IsListing P found.items) (hk : ∀ a, key a = ⟨Declared.qualifiedName a, none⟩) :
    Page.AnswersFrom (fun r => v.page key r found) v.defaultLimit found.items := by
  have hi : Page.Increasing key found.items := by
    simpa using h.increasing_map (f := id) hk
  have ha := answersFrom_page v key found
  rwa [hi.sorted.sort_eq] at ha

/-- Listings show just the entities that the user may read, that stand in the scope of the request,
pass its filter and are found by its query; a listing of parameters also shows the members that the
query finds in candidates. No page shows anything else, and one with room for all shows all. -/
theorem listings_exact {d : CatalogDefinition} (built : Database.build d = .ok v.db) :
    (∀ r : ListRequest, ∃ found, IsListing (v.IsListed r fun _ => True) found ∧
      Page.AnswersFrom (fun page => v.listContainers { r with page }) v.defaultLimit found) ∧
    (∀ r : CommandRequest, ∃ found, IsListing (v.IsListed r.list r.Keeps) found ∧
      Page.AnswersFrom (fun page => v.listCommands { r with list := { r.list with page } })
        v.defaultLimit found) ∧
    (∀ r : AlgorithmRequest, ∃ found, IsListing (v.IsListed r.list r.Keeps) found ∧
      Page.AnswersFrom (fun page => v.listAlgorithms { r with list := { r.list with page } })
        v.defaultLimit found) ∧
    ∀ r : ParameterRequest, ∃ found, v.AreMatches r found ∧
      Page.Sorted ParameterMatch.pageKey found ∧
      Page.AnswersFrom (fun page => v.listParameters { r with list := { r.list with page } })
        v.defaultLimit found := by
  have h := Database.holds_of_build built
  refine ⟨fun r => ⟨_, isListing_foundContainers h r, ?_⟩,
    fun r => ⟨_, isListing_foundCommands h r, ?_⟩,
    fun r => ⟨_, isListing_foundAlgorithms h r, ?_⟩,
    fun r => ⟨_, (areMatches_foundParameters h r).of_perm (Page.sort_perm _ _),
      Page.sorted_sort _, ?_⟩⟩
  · simp only [listContainers_page]
    exact answersFrom_listing (isListing_foundContainers h r) fun _ => rfl
  · simp only [listCommands_page]
    exact answersFrom_listing (isListing_foundCommands h r) fun _ => rfl
  · simp only [listAlgorithms_page]
    exact answersFrom_listing (isListing_foundAlgorithms h r) fun _ => rfl
  · simp only [listParameters_page]
    exact answersFrom_page v _ (v.foundParameters r)

/-- Parameters of a structured type, one of them with an alias, one of another type, and one that not
everyone may read. -/
def pumpsCatalog : CatalogDefinition where
  name := "pumps"
  version := none
  systems := [{
    head := ⟨"S", none, none, []⟩
    version := none
    parameterTypes := [
      ⟨⟨"Samples", none, none, []⟩, ⟨none, .aggregate [
        ⟨"samples", none, .array 2 (.aggregate [⟨"pump", none, .boolean⟩, ⟨"at", none, .time⟩])⟩]⟩⟩,
      ⟨⟨"Flag", none, none, []⟩, ⟨none, .boolean⟩⟩]
    parameters := [⟨⟨"Q", none, none, [⟨"pump_2", none⟩]⟩, ⟨some "Samples", none⟩⟩,
      ⟨⟨"pump_flag", none, none, []⟩, ⟨some "Flag", none⟩⟩,
      ⟨⟨"R", none, none, [⟨"pump_3", none⟩]⟩, ⟨some "Samples", none⟩⟩,
      ⟨⟨"P", none, none, []⟩, ⟨some "Samples", none⟩⟩]
    containers := []
    commands := []
    algorithms := []
    systems := [] }]

def pumpsSearch : ParameterRequest :=
  ⟨⟨some "/S", some "PUMP", .first⟩, ["Aggregate"], none, true⟩

/-- The catalog as seen by a user from whom `R` is hidden. -/
def pumpsView (db : Database) : View :=
  ⟨db, ⟨"guest", false, fun _ name => name ≠ "/S/R"⟩, 100⟩

/-- A member is listed with its parameter, or without it if the words do not occur in the latter. -/
theorem listings_exact_pumps : ∃ db page, Database.build pumpsCatalog = .ok db ∧
    (pumpsView db).listParameters pumpsSearch = .ok page ∧
    (pumpsView db).AreMatches pumpsSearch page.items ∧
    page.items.map ParameterMatch.pageKey = [⟨"/S/P", some ".samples[][].pump"⟩, ⟨"/S/Q", none⟩,
      ⟨"/S/Q", some ".samples[][].pump"⟩] := by
  have hany : (Database.build pumpsCatalog).toOption.any fun db =>
      ((pumpsView db).foundParameters pumpsSearch).items.map ParameterMatch.pageKey =
        [⟨"/S/Q", none⟩, ⟨"/S/P", some ".samples[][].pump"⟩,
          ⟨"/S/Q", some ".samples[][].pump"⟩] := by decide +kernel
  simp only [Option.any_eq_true, toOption_eq_some_iff, decide_eq_true_eq] at hany
  obtain ⟨db, built, hkeys⟩ := hany
  obtain ⟨-, -, -, hp⟩ := listings_exact (v := pumpsView db) built
  obtain ⟨found, hfound, hsorted, hanswers⟩ := hp pumpsSearch
  have hperm : (found.map ParameterMatch.pageKey).Perm
      [⟨"/S/P", some ".samples[][].pump"⟩, ⟨"/S/Q", none⟩,
        ⟨"/S/Q", some ".samples[][].pump"⟩] := by
    have hall := areMatches_foundParameters (v := pumpsView db) (Database.holds_of_build built)
      pumpsSearch
    exact ((hfound.perm hall).map _).trans (hkeys ▸ .swap ..)
  have hlength : found.length = 3 := by simpa using hperm.length_eq
  have hlimit : PageRequest.first.limit.getD (pumpsView db).defaultLimit = 100 := rfl
  have hpos : PageRequest.first.pos = none := rfl
  obtain ⟨page, hpage, hitems, -⟩ := hanswers.whole hpos rfl (by simp [hlimit])
    (by simp [hlimit, hlength])
  refine ⟨db, page, built, hpage, ?_, ?_⟩ <;> rw [hitems]
  · exact hfound
  · exact hsorted.map_key_eq (by decide +kernel) hperm

end View

end MissionCatalog
