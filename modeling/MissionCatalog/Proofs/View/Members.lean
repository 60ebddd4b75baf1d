import MissionCatalog.Proofs.MemberPath.Fits
import MissionCatalog.Proofs.View.Gets
import MissionCatalog.Proofs.View.Listing

/-!
# Looking up the members that a search finds

A search gives the path to a member with open subscripts. With an index in place of every one, and
the path of the parameter in front, the member can be asked for. Here it is shown for which members
the answer is that they exist.
-/
namespace MissionCatalog
open Name MemberPath

namespace MemberPath
open TypeStep

lemma name_ne_none_of_map_name {elements : List PathElement} {names : List String}
    (h : elements.map (·.name) = names.map some) : ∀ e ∈ elements, e.name ≠ none := by
  intro e he hnone
  have hmem : none ∈ names.map some := h ▸ hnone ▸ List.mem_map_of_mem he
  simp at hmem

lemma IsReadable.of_names {elements : List PathElement} {names : List String}
    (hne : names ≠ []) (hnames : elements.map (·.name) = names.map some)
    (hreadable : ∀ name ∈ names, IsMemberName name)
    (indices : ∀ e ∈ elements, .any ∉ e.index) : IsReadable ⟨elements⟩ := by
  have hnamed := name_ne_none_of_map_name hnames
  refine ⟨?_, ?_, indices, fun e he => hnamed e (List.mem_of_mem_tail he),
    fun e he hnone => absurd hnone (hnamed e (List.mem_of_mem_head? he))⟩
  · rintro rfl
    exact hne (List.map_eq_nil_iff.1 hnames.symm)
  · intro e he name hname
    have hmem : some name ∈ names.map some := hnames ▸ hname ▸ List.mem_map_of_mem he
    exact hreadable name (by simpa using hmem)

lemma IsReadable.cons {index : List Subscript} {elements : List PathElement}
    (h : IsReadable ⟨elements⟩) (hne : index ≠ []) (hindex : .any ∉ index)
    (named : ∀ e ∈ elements, e.name ≠ none) :
    IsReadable ⟨⟨none, index⟩ :: elements⟩ where
  ne_nil := List.cons_ne_nil _ _
  names := List.forall_mem_cons.2 ⟨by simp, h.names⟩
  indices := List.forall_mem_cons.2 ⟨hindex, h.indices⟩
  named := named
  begins := by simp [hne]

lemma Fills.map_name_eq {q p : MemberPath} (h : q.Fills p) :
    q.elements.map (·.name) = p.elements.map (·.name) := by
  rw [← List.forall₂_eq_eq_eq, List.forall₂_map_left_iff, List.forall₂_map_right_iff]
  exact h.imp fun e f hstep => hstep.1

lemma Fills.any_not_mem {q p : MemberPath} (h : q.Fills p) : ∀ e ∈ q.elements, .any ∉ e.index := by
  have hboth : List.Forall₂ (fun e _ => .any ∉ e.index ∧ True) q.elements p.elements :=
    h.imp fun e f hstep => ⟨hstep.2.2, trivial⟩
  exact ((List.forall₂_and_left ..).1 hboth).1

lemma hasReadableNames_iff_map {p : MemberPath} : p.HasReadableNames ↔
    ∀ name? ∈ p.elements.map (·.name), ∀ name ∈ name?, IsMemberName name := by
  rw [HasReadableNames, List.forall_mem_map]

lemma Fills.hasReadableNames_iff {q p : MemberPath} (h : q.Fills p) :
    q.HasReadableNames ↔ p.HasReadableNames := by
  rw [hasReadableNames_iff_map, hasReadableNames_iff_map, h.map_name_eq]

/-- With indices for all its subscripts the path of a place has the text of a readable one, which is
this path but for an element that has neither a name nor a subscript. -/
lemma Fills.exists_isReadable {q : MemberPath} {steps : List TypeStep} (h : q.Fills (ofSteps steps))
    (hne : steps.filterMap name? ≠ [])
    (hreadable : (ofSteps steps).HasReadableNames) :
    ∃ r : MemberPath, r.IsReadable ∧ r.text = q.text ∧ ∀ t, r.fits t = q.fits t := by
  have hnames := map_name_ofSteps steps
  have hreadable : ∀ name ∈ steps.filterMap name?, IsMemberName name := by
    rw [hasReadableNames_iff_map, hnames] at hreadable
    exact fun name hname =>
      hreadable (some name) (List.mem_append_right _ (List.mem_map_of_mem hname)) name rfl
  rw [← h.map_name_eq] at hnames
  have hindices := h.any_not_mem
  unfold leadingName at hnames
  split at hnames
  · obtain ⟨⟨_, index⟩, elements, helements, rfl, hothers⟩ := List.map_eq_cons_iff.1 hnames
    obtain rfl : q = ⟨⟨none, index⟩ :: elements⟩ := congrArg MemberPath.mk helements
    obtain ⟨hindex, hrest⟩ := List.forall_mem_cons.1 hindices
    have hrest : IsReadable ⟨elements⟩ := .of_names hne hothers hreadable hrest
    cases index with
    | nil => exact ⟨_, hrest, rfl, fun t => by rw [fits, fits, typeAt?_cons]; rfl⟩
    | cons s index =>
      have hnamed := name_ne_none_of_map_name hothers
      exact ⟨_, hrest.cons (List.cons_ne_nil s index) hindex hnamed, rfl, fun _ => rfl⟩
  · exact ⟨q, .of_names hne hnames hreadable hindices, rfl, fun _ => rfl⟩

end MemberPath

namespace View

variable {v : View}

/-- The answer to a plain path of a parameter with the path of a member behind it is the parameter,
if the member exists in its type. -/
lemma getParameter_member {base : String} {p : Parameter} {id : ObjectId} {path : MemberPath}
    {t : ParameterType} (resolved : v.db.resolve .parameter base = .ok ⟨p, id⟩)
    (plain : IsPlain (lastSegment base)) (readable : path.IsReadable)
    (access : v.viewer.hasAccess (.member .parameter) p.qualifiedName)
    (type : v.db.typeOf? p = some t) :
    v.getParameter (base ++ path.text) =
      if path.fits t.details.dataType then
        .ok ⟨p, { id with name := id.name ++ path.text }, some path⟩
      else .error (.noMember p.qualifiedName path) := by
  have hrefers := Database.resolveParameter_eq_ok_iff.1
    (Database.resolveParameter_member resolved plain readable)
  rw [getParameter_of_mayRead hrefers access, ParameterRef.verify]
  by_cases hfits : path.fits t.details.dataType <;> simp [type, hfits, Except.map]

lemma exists_isNamedMember {m : Matcher} {t : DataType} {path : MemberPath}
    (h : path ∈ m.membersOf t) : ∃ name, t.IsNamedMember [] name path := by
  rw [Matcher.membersOf] at h
  split at h
  · simp at h
  · obtain ⟨⟨name, _⟩, hmem, rfl⟩ := List.mem_map.1 h
    exact ⟨name, DataType.mem_namedMembers_iff.1 (List.mem_filter.1 hmem).1⟩

/-- Every path that a search reports is spelled by the steps to a member. It exists in the type just
if addressable steps spell it, through the first members of their names; if no aggregate has two
members of one name, just if the steps to the member are addressable. With any indices in place of
its open subscripts it exists just if it does with these. If the names in it can stand in a text,
then those who may read the parameter get it by such a path if the path exists, and else are told
that it does not; otherwise no path that is asked for is read as this one. -/
theorem found_members_exist_iff (v : View) (m : Matcher) {p : Parameter} {t : ParameterType}
    (type : v.db.typeOf? p = some t) {path : MemberPath}
    (found : path ∈ m.membersOf t.details.dataType) :
    ∃ steps u name, t.details.dataType.Leads steps u ∧ steps.getLast? = some (.member name) ∧
      path = ofSteps steps ∧
      (path.fits t.details.dataType ↔ ∃ others u', t.details.dataType.follow? others = some u' ∧
        TypeStep.Addressable others ∧ ofSteps others = path) ∧
      (t.details.dataType.HasDistinctNames →
        (path.fits t.details.dataType ↔ TypeStep.Addressable steps)) ∧
      (¬path.HasReadableNames → ∀ asked ref, v.getParameter asked = .ok ref →
        ∀ r ∈ ref.path, ¬r.Fills path) ∧
      ∀ q : MemberPath, q.Fills path → q.fits t.details.dataType = path.fits t.details.dataType ∧
        (path.HasReadableNames → v.viewer.hasAccess (.member .parameter) p.qualifiedName →
          ∀ base id, v.db.resolve .parameter base = .ok ⟨p, id⟩ → IsPlain (lastSegment base) →
            ∃ r : MemberPath, r.text = q.text ∧ v.getParameter (base ++ q.text) =
              if path.fits t.details.dataType then
                .ok ⟨p, { id with name := id.name ++ q.text }, some r⟩
              else .error (.noMember p.qualifiedName r)) := by
  obtain ⟨name, steps, u, leads, hlast, rfl⟩ := exists_isNamedMember found
  refine ⟨steps, u, name, leads, hlast, rfl, fits_ofSteps_iff leads hlast, fun hdistinct => ?_,
    fun hnames asked ref href r hr hfills => ?_,
    fun q hq => ⟨hq.fits_eq _, fun hnames access base id resolved plain => ?_⟩⟩
  · exact fits_ofSteps_iff_addressable (DataType.follow?_of_leads hdistinct leads) hlast
  · obtain ⟨read, hread, href⟩ := bind_eq_ok.1 href
    obtain ⟨_, -, href⟩ := bind_eq_ok.1 href
    obtain ⟨_, -, href⟩ := bind_eq_ok.1 href
    obtain rfl : read = ref := Except.ok.inj href
    have hreadable := Database.isReadable_of_resolveParameter hread r hr
    exact hnames (hfills.hasReadableNames_iff.1 hreadable.names)
  · have hname : name ∈ steps.filterMap TypeStep.name? :=
      List.mem_filterMap.2 ⟨_, List.mem_of_getLast? hlast, rfl⟩
    obtain ⟨r, hr, htext, hfits⟩ := hq.exists_isReadable (List.ne_nil_of_mem hname) hnames
    refine ⟨r, htext, ?_⟩
    rw [← hq.fits_eq, ← hfits, ← htext]
    exact getParameter_member resolved plain hr access type

/-- The one parameter of the catalog has a member `b` behind an array `a`, and one behind an array
`c` of arrays. -/
def nestedCatalog : CatalogDefinition where
  name := "nested"
  version := none
  systems := [{
    head := ⟨"S", none, none, []⟩
    version := none
    parameterTypes := [⟨⟨"T", none, none, []⟩,
      ⟨none, .aggregate [⟨"a", none, .array 1 (.aggregate [⟨"b", none, .boolean⟩])⟩,
        ⟨"c", none, .array 1 (.array 1 (.aggregate [⟨"b", none, .boolean⟩]))⟩]⟩⟩]
    parameters := [⟨⟨"P", none, none, []⟩, ⟨some "T", none⟩⟩]
    containers := []
    commands := []
    algorithms := []
    systems := [] }]

/-- The paths `.a[].b` and `.a[0].b`, according to the subscript. -/
def behindArray (s : Subscript) : MemberPath := ⟨[⟨some "a", [s]⟩, ⟨some "b", []⟩]⟩

def behindArrays (s : Subscript) : MemberPath := ⟨[⟨some "c", [s, s]⟩, ⟨some "b", []⟩]⟩

/-- A search for `b` finds both members, but only the first is there when it is asked for. -/
theorem found_members_exist_nested : ∃ db, Database.build nestedCatalog = .ok db ∧
    ∃ found t, db.resolve .parameter "S/P" = .ok found ∧ db.typeOf? found.entity = some t ∧
      (Matcher.ofQuery "b").membersOf t.details.dataType = [behindArray .any, behindArrays .any] ∧
      ((dottedView db).getParameter "S/P.a[0].b").isOk ∧
      ¬((dottedView db).getParameter "S/P.c[0][0].b").isOk := by
  have hany : (Database.build nestedCatalog).toOption.any fun db =>
      (db.resolve .parameter "S/P").toOption.any fun found =>
        (db.typeOf? found.entity).any fun t =>
          (Matcher.ofQuery "b").membersOf t.details.dataType =
              [behindArray .any, behindArrays .any] ∧
            (behindArray .any).fits t.details.dataType ∧
            ¬(behindArrays .any).fits t.details.dataType := by decide +kernel
  simp only [Option.any_eq_true, toOption_eq_some_iff, decide_eq_true_eq] at hany
  obtain ⟨db, hb, found, hfound, t, ht, hmembers, hshort, hlong⟩ := hany
  have hplain : IsPlain (lastSegment "S/P") := by decide +kernel
  have hget : ∀ path ∈ (Matcher.ofQuery "b").membersOf t.details.dataType, path.HasReadableNames →
      ∀ q : MemberPath, q.Fills path →
        ((dottedView db).getParameter ("S/P" ++ q.text)).isOk = path.fits t.details.dataType := by
    intro path hpath hnames q hq
    obtain ⟨_, _, _, -, -, -, -, -, -, hget⟩ :=
      found_members_exist_iff (dottedView db) (.ofQuery "b") ht hpath
    obtain ⟨r, -, hr⟩ := (hget q hq).2 hnames rfl "S/P" found.id hfound hplain
    rw [hr]
    cases path.fits t.details.dataType <;> rfl
  have hshorttext : "S/P" ++ (behindArray (.index 0)).text = "S/P.a[0].b" := by decide +kernel
  have hlongtext : "S/P" ++ (behindArrays (.index 0)).text = "S/P.c[0][0].b" := by decide +kernel
  refine ⟨db, hb, found, t, hfound, ht, hmembers, ?_, ?_⟩
  · rw [← hshorttext, hget (behindArray .any) (by simp [hmembers])]
    · exact hshort
    · simp [behindArray, HasReadableNames, IsMemberName, startsElement]
    · simp [Fills, behindArray]
  · rw [← hlongtext, hget (behindArrays .any) (by simp [hmembers])]
    · exact hlong
    · simp [behindArrays, HasReadableNames, IsMemberName, startsElement]
    · simp [Fills, behindArrays]

end View

end MissionCatalog
