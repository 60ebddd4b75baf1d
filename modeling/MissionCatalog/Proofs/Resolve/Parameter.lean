import MissionCatalog.Proofs.View.Answers
import MissionCatalog.Proofs.View.Gets

/-!
# Parameters by their own paths

The last segment of a path may end in the path of a member. So a parameter is found by its own path,
as other entities are, just if that segment has none of the characters with which one begins.
-/
namespace MissionCatalog
open Name MemberPath

namespace View

variable {v : View}

/-- Without a member there is nothing to look for in the type. -/
lemma getParameter_whole_iff {path : String} {p : Parameter} {id : ObjectId} :
    v.getParameter path = .ok ⟨p, id, none⟩ ↔
      v.viewer.hasAccess (.member .parameter) p.qualifiedName ∧
        v.db.resolve .parameter path = .ok ⟨p, id⟩ ∧ IsPlain (lastSegment path) := by
  have hverify : ParameterRef.verify ⟨p, id, none⟩ v.db = .ok () := rfl
  rw [(getParameter_decided v path).ok_iff, ← Database.resolveParameter_whole_iff,
    Database.resolveParameter_eq_ok_iff, and_iff_left hverify, and_comm]
  rfl

lemma IsMatch.isCandidate {r : ParameterRequest} {m : MatchPlace} (h : v.IsMatch r m) :
    v.IsCandidate r.list (r.Keeps v.db) m.parameter := by
  cases h with
  | whole listed => exact listed.toIsCandidate
  | member searched candidate type inType found => exact candidate

lemma isCandidate_of_mem_page {c : CatalogDefinition} (h : v.db.Holds c) {r : ParameterRequest}
    {page : Page ParameterMatch} (hp : v.listParameters r = .ok page) {m : ParameterMatch}
    (hm : m ∈ page.items) : v.IsCandidate r.list (r.Keeps v.db) m.parameter := by
  have ha := answersFrom_page v ParameterMatch.pageKey (v.foundParameters r)
  have hfound : m ∈ (v.foundParameters r).items :=
    (Page.sort_perm _ _).mem_iff.1 ((ha.part hp).2.subset hm)
  obtain ⟨place, hplace, rfl⟩ := (areMatches_foundParameters h r).mem_iff.1 hfound
  exact hplace.isCandidate

lemma exists_page_of_isMatch {c : CatalogDefinition} (h : v.db.Holds c) {r : ParameterRequest}
    {m : MatchPlace} (hm : v.IsMatch r m) : ∃ request page,
      v.listParameters { r with list := { r.list with page := request } } = .ok page ∧
        m.shown ∈ page.items := by
  have hfound := (areMatches_foundParameters h r).mem_iff.2 ⟨m, hm, rfl⟩
  let request : PageRequest := ⟨none, some (v.foundParameters r).items.length, none⟩
  have hpos : request.pos = none := rfl
  have ha := answersFrom_page v ParameterMatch.pageKey (v.foundParameters r)
  obtain ⟨page, hpage, hitems, -⟩ :=
    ha.whole hpos rfl (List.length_pos_of_mem hfound) (Page.length_sort _).le
  refine ⟨request, page, (listParameters_page r request).trans hpage, ?_⟩
  rw [hitems]
  exact (Page.sort_perm _ _).mem_iff.2 hfound

lemma getParameter_qualifiedName_iff {c : CatalogDefinition} (h : v.db.Holds c) {p : Parameter}
    (hp : p ∈ (v.db.table .parameter).sorted)
    (ha : v.viewer.hasAccess (.member .parameter) p.qualifiedName) :
    (∃ id, v.getParameter p.qualifiedName = .ok ⟨p, id, none⟩) ↔ IsPlain p.head.name ∧
      ∀ f ∈ (v.db.table .parameter).sorted,
        ⟨p.head.name, some ("/" ++ p.owner)⟩ ∈ f.head.aliases → f = p := by
  obtain ⟨found, hfound, hiff⟩ := h.exists_resolve hp
  have hlast : lastSegment p.qualifiedName = p.head.name :=
    lastSegment_qualify (h.isValid_of_mem_sorted hp) p.owner
  simp only [getParameter_whole_iff, hlast, hfound, ← hiff, ha, true_and]
  constructor
  · rintro ⟨id, hid, hplain⟩
    exact ⟨hplain, congrArg Resolved.entity (Except.ok.inj hid)⟩
  · rintro ⟨hplain, hentity⟩
    exact ⟨found.id, by rw [← hentity], hplain⟩

/-- A parameter that a path leads to is found by that path as a path of parameters, whole and under
the same id, just if the last segment is plain; then all who may read the parameter get it. So those
who see a parameter listed get it by namespace and name, if its name is plain. With the slash in front
they get it just if no other parameter has the name under one more slash as an alias. -/
theorem getParameter_extends_resolve {c : CatalogDefinition} (built : Database.build c = .ok v.db) :
    (∀ {path found}, v.db.resolve .parameter path = .ok found →
      (v.db.resolveParameter path = .ok ⟨found.entity, found.id, none⟩ ↔
        IsPlain (lastSegment path)) ∧
      (v.viewer.hasAccess (.member .parameter) found.entity.qualifiedName →
        (v.getParameter path = .ok ⟨found.entity, found.id, none⟩ ↔
          IsPlain (lastSegment path)))) ∧
    ∀ {r page}, v.listParameters r = .ok page → ∀ m ∈ page.items,
      (∃ ns, m.parameter.owner = "/" ++ ns ∧
        (v.getParameter (ns ++ "/" ++ m.parameter.head.name) =
            .ok ⟨m.parameter, ⟨m.parameter.head.name, some m.parameter.owner⟩, none⟩ ↔
          IsPlain m.parameter.head.name)) ∧
      ((∃ id, v.getParameter m.parameter.qualifiedName = .ok ⟨m.parameter, id, none⟩) ↔
        IsPlain m.parameter.head.name ∧ ∀ f ∈ (v.db.table .parameter).sorted,
          ⟨m.parameter.head.name, some ("/" ++ m.parameter.owner)⟩ ∈ f.head.aliases →
            f = m.parameter) := by
  have h := Database.holds_of_build built
  constructor
  · intro path found hfound
    refine ⟨by rw [Database.resolveParameter_whole_iff, and_iff_right hfound], fun ha => ?_⟩
    rw [getParameter_whole_iff, and_iff_right ha, and_iff_right hfound]
  · intro r page hpage m hm
    obtain ⟨hdeclared, ha, -, -⟩ := isCandidate_of_mem_page h hpage hm
    refine ⟨?_, getParameter_qualifiedName_iff h hdeclared ha⟩
    obtain ⟨ns, howner, hself⟩ := h.exists_resolve_self hdeclared
    refine ⟨ns, howner, ?_⟩
    rw [getParameter_whole_iff, and_iff_right ha, and_iff_right hself,
      lastSegment_append (h.isValid_of_mem_sorted hdeclared)]

/-- The path of `a.b` leads to it, but as a path of parameters to nothing, and that of `P` to `Q`. -/
theorem getParameter_led_astray : ∃ db, Database.build awkwardCatalog = .ok db ∧
    (db.resolve .parameter "/S/a.b").map (·.entity.qualifiedName) = .ok "/S/a.b" ∧
    (db.resolveParameter "/S/a.b").map (·.parameter.qualifiedName) =
      .error (.noParameter "/S/a.b") ∧
    (∃ p ∈ (db.table .parameter).sorted, p.qualifiedName = "/S/P") ∧
    ∃ r, (dottedView db).getParameter "/S/P" = .ok r ∧ r.parameter.qualifiedName = "/S/Q" := by
  obtain ⟨db, hb⟩ := exists_build_awkwardCatalog
  have ht := (Database.holds_of_build hb).table_eq .parameter
  have hq : (db.resolve .parameter "/S/P").map (·.entity.qualifiedName) = .ok "/S/Q" := by
    rw [Database.resolve, ht]
    decide +kernel
  refine ⟨db, hb, ?_, ?_, ?_, ?_⟩
  · rw [Database.resolve, ht]
    decide +kernel
  · rw [Database.resolveParameter, Database.resolve, ht]
    decide +kernel
  · rw [ht]
    decide +kernel
  · obtain ⟨found, hfound, hname⟩ := map_eq_ok.1 hq
    have hplain : IsPlain (lastSegment "/S/P") := by decide +kernel
    exact ⟨_, getParameter_whole_iff.2 ⟨rfl, hfound, hplain⟩, hname⟩

/-- `Q` is got by its path, and `P` without the slash in front, as it is listed. -/
theorem getParameter_extends_resolve_awkward : ∃ db, Database.build awkwardCatalog = .ok db ∧
    (∃ found, db.resolve .parameter "/S/Q" = .ok found ∧
      (dottedView db).getParameter "/S/Q" = .ok ⟨found.entity, found.id, none⟩) ∧
    ∃ r page, (dottedView db).listParameters r = .ok page ∧
      ∃ m ∈ page.items, m.parameter.qualifiedName = "/S/P" ∧
        (dottedView db).getParameter "S/P" = .ok ⟨m.parameter, ⟨"P", some "/S"⟩, none⟩ := by
  obtain ⟨db, hb⟩ := exists_build_awkwardCatalog
  have h := Database.holds_of_build hb
  have ht := h.table_eq .parameter
  obtain ⟨hpath, hlisted⟩ := getParameter_extends_resolve (v := dottedView db) hb
  refine ⟨db, hb, ?_, ?_⟩
  · have hq : (db.resolve .parameter "/S/Q").map (·.entity.qualifiedName) = .ok "/S/Q" := by
      rw [Database.resolve, ht]
      decide +kernel
    obtain ⟨found, hfound, -⟩ := map_eq_ok.1 hq
    have hplain : IsPlain (lastSegment "/S/Q") := by decide +kernel
    exact ⟨found, hfound, ((hpath hfound).2 rfl).2 hplain⟩
  · have hp : ∃ p ∈ (db.table .parameter).sorted, p.owner = "/S" ∧ p.head.name = "P" := by
      rw [ht]
      decide +kernel
    obtain ⟨p, hp, howner, hname⟩ := hp
    have hlist : (dottedView db).IsMatch ⟨⟨none, none, .first⟩, [], none, false⟩ ⟨p, none⟩ :=
      .whole ⟨⟨hp, rfl, by simp [InScope], ⟨by simp, by simp⟩⟩, by simp [Query.Finds, Text.words]⟩
    obtain ⟨request, page, hpage, hm⟩ := exists_page_of_isMatch h hlist
    refine ⟨_, page, hpage, ⟨p, none⟩, hm, ?_, ?_⟩
    · rw [Entity.qualifiedName, howner, hname]
      rfl
    · obtain ⟨⟨ns, hns, hget⟩, -⟩ := hlisted hpage ⟨p, none⟩ hm
      rw [hname, howner] at hget
      rw [howner] at hns
      obtain rfl : "S" = ns := by
        rw [← String.toList_inj] at hns ⊢
        simpa using hns
      exact hget.2 (by decide +kernel)

end View

end MissionCatalog
