import MissionCatalog.Inquiry
import MissionCatalog.Proofs.Database.Order
import MissionCatalog.Proofs.Database.Subtree
import MissionCatalog.Proofs.View.Noninterference

/-!
# Reordered catalogs give the same answers

Everything that is shown of a database is looked up by names and keys or sorted by them, so no
answer tells in which order a catalog defines what it defines.
-/
namespace MissionCatalog

variable {a b : Database} {c d : CatalogDefinition} {k : MemberKind}

namespace Database.SameContents

lemma sameTree (h : a.SameContents b) (ha : a.Holds c) (hb : b.Holds d) : a.SameTree b := by
  refine ⟨fun name => ?_, fun name child => ?_, fun key => ?_⟩
  · have hparent := congrArg (Option.map SpaceSystem.parent) (h.map_system?_eq ha hb name)
    rwa [Option.map_map, Option.map_map] at hparent
  · have hiff : ∀ db : Database, (∃ s ∈ db.system? name, child ∈ s.systems) ↔
        ∃ s ∈ (db.system? name).map SpaceSystem.ordered, child ∈ s.systems := by
      intro db
      simp [SpaceSystem.ordered]
    rw [hiff, hiff, h.map_system?_eq ha hb]
  · have hname := congrArg (Option.map SpaceSystem.qualifiedName) (h.map_getByKey?_eq ha hb key)
    rwa [Option.map_map, Option.map_map] at hname

lemma offersSame (h : a.SameContents b) (ha : build c = .ok a) (hb : build d = .ok b)
    (rule : ChildRule) : OffersSame rule k a b := by
  have htree := h.sameTree (holds_of_build ha) (holds_of_build hb)
  cases rule with
  | withCandidates => exact htree.offersSame ha hb
  | withContainers =>
    intro s t hs ht hname entities
    have hany : b.isOffered .withCandidates (a.table .container).sorted =
        b.isOffered .withCandidates (b.table .container).sorted := by
      funext child
      rw [Bool.eq_iff_iff, isOffered, isOffered, List.any_eq_true, List.any_eq_true]
      simp only [h.members]
    rw [Holds.offered_withContainers ha hs, Holds.offered_withContainers hb ht,
      htree.offersSame ha hb hs ht hname, offered, offered, hany]

lemma map_resolveSystem_eq (h : a.SameContents b) (ha : a.Holds c) (hb : b.Holds d)
    (path : String) : (a.resolveSystem path).map SpaceSystem.ordered =
      (b.resolveSystem path).map SpaceSystem.ordered := by
  have hnames := (h.sameTree ha hb).resolveSystem_eq ha hb path
  cases hs : a.resolveSystem path with
  | error e =>
    cases ht : b.resolveSystem path with
    | error e' =>
      rw [hs, ht] at hnames
      exact congrArg Except.error (Except.error.inj hnames)
    | ok t => simp [hs, ht, Except.map] at hnames
  | ok s =>
    cases ht : b.resolveSystem path with
    | error e' => simp [hs, ht, Except.map] at hnames
    | ok t =>
      have hname : s.qualifiedName = t.qualifiedName := by simpa [hs, ht, Except.map] using hnames
      exact congrArg Except.ok (h.ordered_eq hb (ha.mem_systems_of_resolveSystem hs)
        (hb.mem_systems_of_resolveSystem ht) hname)

end Database.SameContents

/-- The children of a space system are shown in order, and its members are not shown. -/
lemma SpaceSystem.project_ordered (s : SpaceSystem) (detail : Detail) :
    s.ordered.project detail = s.project detail := by
  have hsort : s.systems.mergeSort.mergeSort = s.systems.mergeSort :=
    mergeSort_eq_of_perm (List.mergeSort_perm _ _)
  simp only [project, ordered, hsort]
  rfl

namespace View

def entityAs (v : View) (detail : Detail) (kind : Kind) (path : String) : Except QueryError Json :=
  match kind with
  | .spaceSystem => (v.getSystem path).map (SpaceSystem.project · detail)
  | .member .parameter => (v.getParameter path).map (ParameterRef.project v.db · detail)
  | .member .parameterType => (v.getParameterType path).map (ParameterType.project · detail)
  | .member .container => (v.getContainer path).map (Container.project v.db · detail)
  | .member .command => (v.getCommand path).map (Command.project · detail)
  | .member .algorithm => (v.getAlgorithm path).map (Algorithm.project · detail)

lemma entityAs_full (v : View) (kind : Kind) (path : String) :
    v.entityAs .full kind path = v.entity kind path := by
  cases kind with
  | spaceSystem => rfl
  | member k => cases k <;> rfl

variable {viewer : Viewer} {limit : ℕ}

section Entities

variable (h : a.SameContents b) (ha : a.Holds c) (hb : b.Holds d)

include h ha hb

lemma project_parameter_eq : Parameter.project a = Parameter.project b := by
  have htype := typeOf?_eq ha hb h.members
  have huse := h.containersWith_eq ha hb
  funext p path detail
  simp only [Parameter.project, htype, huse]

lemma project_container_eq : Container.project a = Container.project b := by
  have huse := h.containersWith_eq ha hb
  funext e detail
  simp only [Container.project, huse]

lemma verify_eq (r : ParameterRef) : r.verify a = r.verify b := by
  simp only [ParameterRef.verify, typeOf?_eq ha hb h.members]

lemma get_eq (k : MemberKind) (path : String) :
    (mk a viewer limit).get k path = (mk b viewer limit).get k path := by
  simp only [get, h.resolve_eq ha hb]
  rfl

lemma getParameter_eq (path : String) :
    (mk a viewer limit).getParameter path = (mk b viewer limit).getParameter path := by
  simp only [getParameter, h.resolveParameter_eq ha hb, verify_eq h ha hb]
  rfl

lemma getParameterType_eq (path : String) :
    (mk a viewer limit).getParameterType path = (mk b viewer limit).getParameterType path := by
  simp only [getParameterType, h.resolve_eq ha hb]
  rfl

lemma map_getSystem_eq (path : String) (detail : Detail) :
    ((mk a viewer limit).getSystem path).map (SpaceSystem.project · detail) =
      ((mk b viewer limit).getSystem path).map (SpaceSystem.project · detail) := by
  have hresolve := congrArg (Except.map (SpaceSystem.project · detail))
    (h.map_resolveSystem_eq ha hb path)
  simp only [except_map_map, SpaceSystem.project_ordered] at hresolve
  simp only [getSystem, except_map_bind, hresolve]
  rfl

lemma entityAs_eq (detail : Detail) (kind : Kind) (path : String) :
    (mk a viewer limit).entityAs detail kind path =
      (mk b viewer limit).entityAs detail kind path := by
  have hparameter := project_parameter_eq h ha hb
  have hcontainer := project_container_eq h ha hb
  cases kind with
  | spaceSystem => exact map_getSystem_eq h ha hb path detail
  | member k =>
    cases k with
    | parameterType => simp only [entityAs, getParameterType_eq h ha hb]
    | parameter =>
      simp only [entityAs, getParameter_eq h ha hb, ParameterRef.project, hparameter]
    | container => simp only [entityAs, getContainer, get_eq h ha hb, hcontainer]
    | command => simp only [entityAs, getCommand, get_eq h ha hb]
    | algorithm => simp only [entityAs, getAlgorithm, get_eq h ha hb]

lemma batch_eq (ids : List ObjectId) :
    (mk a viewer limit).batch ids = (mk b viewer limit).batch ids := by
  have hone : (mk a viewer limit).parameterOf = (mk b viewer limit).parameterOf := by
    funext id
    simp only [parameterOf, h.getById?_eq ha hb]
  simp only [batch, hone]
  rfl

lemma map_summary_eq : (mk a viewer limit).summary.map Summary.toJson =
    (mk b viewer limit).summary.map Summary.toJson := by
  have hcounts : a.countFields = b.countFields := by
    simp only [Database.countFields, h.size_eq ha hb]
  have hsystems : a.root.systems.mergeSort = b.root.systems.mergeSort :=
    congrArg SpaceSystem.systems h.root
  simp only [summary, except_map_bind]
  refine congrArg (_ >>= ·) (funext fun _ => congrArg Except.ok ?_)
  simp only [Summary.toJson, h.name, h.version, hcounts, hsystems]

end Entities

lemma map_page {α β : Type} (v : View) (key : β → PageKey) (f : α → β) (g : β → Json)
    (request : PageRequest) (found : Scoped α) :
    (v.page key request ⟨found.items.map f, found.systems⟩).map (Page.toJson g) =
      (v.page (fun e => key (f e)) request found).map (Page.toJson fun e => g (f e)) := by
  simp only [page, Page.build_map, except_map_map]
  congr 1
  funext shown
  simp only [Page.toJson, Page.withSystems, Page.map, List.map_map, Function.comp_def]

section Listings

variable (h : a.SameContents b) (ha : Database.build c = .ok a) (hb : Database.build d = .ok b)

include h ha hb

lemma found_eq_of_sameContents (r : ListRequest) (rule : ChildRule) (keep : Entity k → Bool) :
    (mk a viewer limit).found r rule keep = (mk b viewer limit).found r rule keep := by
  have hha := Database.holds_of_build ha
  have hhb := Database.holds_of_build hb
  exact found_eq_of_offersSame hha hhb (h.sameTree hha hhb) (h.offersSame ha hb rule)
    (fun e _ => h.members e) limit r keep

/-- The space systems may differ in the order of their children, but not in what is shown. -/
lemma map_listSystems_eq (query : Option String) (request : PageRequest) (detail : Detail) :
    ((mk a viewer limit).listSystems query request).map
        (Page.toJson (SpaceSystem.project · detail)) =
      ((mk b viewer limit).listSystems query request).map
        (Page.toJson (SpaceSystem.project · detail)) := by
  have hfound : ((mk a viewer limit).foundSystems query).items.map SpaceSystem.ordered =
      ((mk b viewer limit).foundSystems query).items.map SpaceSystem.ordered := by
    have hfilter : ∀ v : View, (v.foundSystems query).items.map SpaceSystem.ordered =
        (v.db.systems.sorted.map SpaceSystem.ordered).filter fun s =>
          !s.isRoot && (Matcher.ofQuery (query.getD "")).inHead s.head := by
      intro v
      rw [List.filter_map]
      rfl
    rw [hfilter, hfilter,
      h.map_sorted_eq (Database.holds_of_build ha) (Database.holds_of_build hb)]
  have hpage : ∀ v : View, (v.page SpaceSystem.pageKey request (v.foundSystems query)).map
      (Page.toJson (SpaceSystem.project · detail)) = (v.page SpaceSystem.pageKey request
        ⟨(v.foundSystems query).items.map SpaceSystem.ordered, []⟩).map
          (Page.toJson (SpaceSystem.project · detail)) := by
    intro v
    have hmap := v.map_page SpaceSystem.pageKey SpaceSystem.ordered
      (SpaceSystem.project · detail) request (v.foundSystems query)
    simp only [SpaceSystem.project_ordered] at hmap
    exact hmap.symm
  simp only [listSystems, except_map_bind, hpage, hfound]
  rfl

lemma listing_eq (detail : Detail) (listing : Listing) :
    (mk a viewer limit).listing detail listing = (mk b viewer limit).listing detail listing := by
  have hha := Database.holds_of_build ha
  have hhb := Database.holds_of_build hb
  have hfound : ∀ {k : MemberKind} (r : ListRequest) (rule : ChildRule) (keep : Entity k → Bool),
      (mk a viewer limit).found r rule keep = (mk b viewer limit).found r rule keep :=
    found_eq_of_sameContents h ha hb
  cases listing with
  | systems query request => exact map_listSystems_eq h ha hb query request detail
  | parameters r =>
    have hparameters :
        (mk a viewer limit).foundParameters r = (mk b viewer limit).foundParameters r :=
      foundParameters_eq ha hb (h.sameTree hha hhb) (fun e _ => h.members e) h.members r
    simp only [View.listing, listParameters, hparameters, ParameterMatch.project,
      project_parameter_eq h hha hhb]
    rfl
  | containers r =>
    simp only [View.listing, listContainers, foundContainers, hfound,
      project_container_eq h hha hhb]
    rfl
  | commands r =>
    simp only [View.listing, listCommands, foundCommands, hfound]
    rfl
  | algorithms r =>
    simp only [View.listing, listAlgorithms, foundAlgorithms, hfound]
    rfl

end Listings

/-- It does not matter in which order a catalog defines its space systems and their members: whether
it can be built, and what is answered to any request, of any user, at any level of detail. -/
theorem answers_of_reordered (h : c.Reordered d) :
    ((∃ a, Database.build c = .ok a) ↔ ∃ b, Database.build d = .ok b) ∧
    ∀ a b, Database.build c = .ok a → Database.build d = .ok b → ∀ viewer limit,
      (∀ inquiry, (mk a viewer limit).answer inquiry = (mk b viewer limit).answer inquiry) ∧
      ∀ detail kind path, (mk a viewer limit).entityAs detail kind path =
        (mk b viewer limit).entityAs detail kind path := by
  refine ⟨?_, fun a b ha hb viewer limit => ?_⟩
  · simp only [CatalogDefinition.exists_build_iff_passes, CatalogDefinition.passes_iff_wellFormed]
    exact ⟨h.wellFormed, h.symm.wellFormed⟩
  · have hha := Database.holds_of_build ha
    have hhb := Database.holds_of_build hb
    have hsame := Database.SameContents.of_reordered ha hb h
    refine ⟨fun inquiry => ?_, fun detail kind path => entityAs_eq hsame hha hhb detail kind path⟩
    cases inquiry with
    | summary => exact map_summary_eq hsame hha hhb
    | list listing detail => exact listing_eq hsame ha hb detail listing
    | get kind path =>
      simp only [answer, ← entityAs_full]
      exact entityAs_eq hsame hha hhb .full kind path
    | batch ids =>
      simp only [answer, batch_eq hsame hha hhb]
      have hparameter := project_parameter_eq hsame hha hhb
      have hitem : BatchItem.toJson a = BatchItem.toJson b := by
        funext item
        simp only [BatchItem.toJson, hparameter]
      simp only [hitem]

def measuring (name : String) (parameters : List String) : SystemDefinition where
  head := ⟨name, none, none, []⟩
  version := none
  parameterTypes := []
  parameters := parameters.map fun name => ⟨⟨name, none, none, []⟩, ⟨none, none⟩⟩
  containers := []
  commands := []
  algorithms := []
  systems := []

def measuringCatalog (systems : List SystemDefinition) : CatalogDefinition := ⟨"m", none, systems⟩

theorem answers_of_reordered_measuring : ∃ a b,
    Database.build (measuringCatalog [measuring "A" ["P", "Q"], measuring "B" []]) = .ok a ∧
    Database.build (measuringCatalog [measuring "B" [], measuring "A" ["Q", "P"]]) = .ok b ∧
    a.root.systems ≠ b.root.systems ∧
    ∀ inquiry, (mk a guest 100).answer inquiry = (mk b guest 100).answer inquiry := by
  have hmeasuring : ∀ {name : String} {p q : List String}, p.Perm q →
      (measuring name p).Reordered (measuring name q) := by
    intro name p q hpq
    refine .intro rfl rfl (fun k => ?_) .nil .nil
    cases k with
    | parameter => exact hpq.map _
    | _ => exact .nil
  have hreordered : (measuringCatalog [measuring "A" ["P", "Q"], measuring "B" []]).Reordered
      (measuringCatalog [measuring "B" [], measuring "A" ["Q", "P"]]) :=
    ⟨rfl, rfl, _, .swap _ _ [], .cons (hmeasuring .nil) (.cons (hmeasuring (.swap _ _ [])) .nil)⟩
  obtain ⟨hbuild, hanswers⟩ := answers_of_reordered hreordered
  obtain ⟨a, ha⟩ := CatalogDefinition.exists_build_iff_passes.2
    (show (measuringCatalog [measuring "A" ["P", "Q"], measuring "B" []]).Passes by decide +kernel)
  obtain ⟨b, hb⟩ := hbuild.1 ⟨a, ha⟩
  refine ⟨a, b, ha, hb, ?_, (hanswers a b ha hb guest 100).1⟩
  rw [(Database.holds_of_build ha).root, (Database.holds_of_build hb).root]
  decide +kernel

end View

end MissionCatalog
