import MissionCatalog.Proofs.Browsing
import MissionCatalog.Proofs.Token
import MissionCatalog.Proofs.View.Noninterference

/-!
# What listings tell of the tree

Without words to search for, a listing of a space system offers children of it for navigation.
Containers offer every child that holds containers, whoever asks; the other kinds offer those in
which the user may read something. To these a space system in which the user may read nothing looks
like one that does not exist.
-/
namespace MissionCatalog

/-- The names are those of the children with the property, in ascending order. -/
structure Database.AreChildren (db : Database) (s : SpaceSystem) (P : SpaceSystem → Prop)
    (names : List String) : Prop where
  mem : ∀ name, name ∈ names ↔ ∃ t, db.HasParent t s ∧ P t ∧ t.qualifiedName = name
  increasing : names.Pairwise (· < ·)

/-- The request lists a space system without words to search for. -/
structure ListRequest.Browses (r : ListRequest) (db : Database) (s : SpaceSystem) : Prop where
  scope : ∃ system ∈ r.system, db.resolveSystem (scopePath system) = .ok s
  blank : r.IsBlank

def ListRequest.browse (system : String) : ListRequest := ⟨some system, none, .first⟩

/-- A user without any privilege. -/
def stranger : Viewer := PrivilegeTable.empty.viewer anonymous

/-- Wherever the listing answers a request for a space system, it offers the children with the
property. -/
def View.Offers {α : Type} (v : View) (list : ListRequest → Except QueryError (Page α))
    (P : SpaceSystem → Prop) : Prop :=
  ∀ r s page, r.Browses v.db s → list r = .ok page → v.db.AreChildren s P page.systems

/-- An answer with nothing in it: an empty page, or a complaint about the form of the request. -/
inductive IsEmptyAnswer {α : Type} : Except QueryError (Page α) → Prop
  | page : IsEmptyAnswer (.ok ⟨0, [], none, []⟩)
  | complaint {e : QueryError} (category : e.category = .badRequest) : IsEmptyAnswer (.error e)

/-- The listing answers alike, with nothing, for both space systems. -/
def LooksMissing {α : Type} (list : Option String → Except QueryError (Page α))
    (system missing : String) : Prop :=
  list (some system) = list (some missing) ∧ IsEmptyAnswer (list (some system))

variable {c : CatalogDefinition} {k : MemberKind} {s : SpaceSystem}

namespace Database

variable {db : Database} {rule : ChildRule} {candidates : List (Entity k)}
  {P : SpaceSystem → Prop} {names : List String}

lemma AreChildren.eq_nil (h : db.AreChildren s P names) (hP : ∀ t, db.HasParent t s → ¬P t) :
    names = [] := by
  refine List.eq_nil_iff_forall_not_mem.2 fun name hn => ?_
  obtain ⟨t, ht, hPt, -⟩ := (h.mem name).1 hn
  exact hP t ht hPt

lemma areChildren_offered (hb : build c = .ok db) (hi : db.Owned Entity.owner candidates)
    (hs : s ∈ db.systems.sorted) :
    db.AreChildren s (db.Asked rule candidates) (db.offered rule candidates s) := by
  have h := holds_of_build hb
  have hperm : (db.offered rule candidates s).Perm
      (((db.children s).filter (db.isOffered rule candidates)).map SpaceSystem.qualifiedName) :=
    Holds.offered_perm s
  refine ⟨fun name => ?_, ?_⟩
  · rw [hperm.mem_iff, List.mem_map]
    refine exists_congr fun t => ?_
    rw [List.mem_filter, h.mem_children hs, and_assoc]
    refine and_congr_right fun ht => and_congr_left fun _ => ?_
    exact Holds.isOffered_iff hb hi ht.child
  -- Children have different names, so in the sorted list each is less than the next.
  · have hnodup : (db.offered rule candidates s).Nodup := by
      refine hperm.nodup_iff.2 (.sublist (List.filter_sublist.map _) ?_)
      rw [h.map_children hs]
      exact nodup_children hb hs
    have hle : (db.offered rule candidates s).Pairwise (· ≤ ·) := List.pairwise_mergeSort' _ _
    exact hle.imp₂ (fun _ _ hle hne => lt_of_le_of_ne hle hne) hnodup

end Database

namespace View

variable {v : View} {r : ListRequest} {rule : ChildRule}

lemma owned_readable (h : v.db.Holds c) (k : MemberKind) :
    v.db.Owned Entity.owner (v.readable k) :=
  h.owned_of_subperm List.filter_sublist.subperm

lemma systems_candidates (hr : r.Browses v.db s) (keep : Entity k → Bool) :
    (v.candidates r rule keep).systems = v.db.offered rule (v.readable k) s := by
  obtain ⟨⟨system, hsystem, hres⟩, hblank⟩ := hr
  have hscope : v.db.scope r.system = .within s := by
    rw [Option.mem_def.1 hsystem, scope_eq_within, hres]
  have hempty : r.matcher.isEmpty := (isEmpty_matcher r).2 hblank
  simp [candidates, hscope, hempty, Database.restrict]

lemma offers_page (hb : Database.build c = .ok v.db) {α : Type} {key : α → PageKey}
    {found : ListRequest → Scoped α} (rule : ChildRule)
    (hfound : ∀ r, ∃ keep : Entity k → Bool,
      (found r).systems = (v.candidates r rule keep).systems) :
    v.Offers (fun r => v.page key r.page (found r)) (v.db.Asked rule (v.readable k)) := by
  have h := Database.holds_of_build hb
  intro r s page hr hpage
  obtain ⟨system, -, hres⟩ := hr.scope
  obtain ⟨keep, hkeep⟩ := hfound r
  obtain ⟨cut, -, rfl⟩ := map_eq_ok.1 hpage
  have hs := h.mem_systems_of_resolveSystem hres
  have hchildren : v.db.AreChildren s (v.db.Asked rule (v.readable k))
      (v.db.offered rule (v.readable k) s) :=
    Database.areChildren_offered hb (owned_readable h k) hs
  rwa [← systems_candidates hr keep, ← hkeep] at hchildren

lemma offers_containers (hb : Database.build c = .ok v.db) :
    v.Offers v.listContainers (v.db.Holding (v.db.table .container).sorted) :=
  offers_page hb .withContainers fun _ => ⟨_, rfl⟩

lemma exists_child {db : Database} (h : db.Holds c) (parent child : String)
    (hparent : (db.resolveSystem (scopePath parent)).toOption.any fun s => s.qualifiedName = parent)
    (hchild : ∃ t ∈ db.systems.sorted, t.parent = some parent ∧ t.qualifiedName = child) :
    ∃ s t, (ListRequest.browse parent).Browses db s ∧ db.HasParent t s ∧
      s.qualifiedName = parent ∧ t.qualifiedName = child := by
  obtain ⟨s, hres, hname⟩ := exists_ok_of_any hparent
  obtain ⟨t, ht, hlink, htname⟩ := hchild
  rw [decide_eq_true_eq] at hname
  refine ⟨s, t, ⟨⟨parent, rfl, hres⟩, by simp [ListRequest.IsBlank, ListRequest.browse]⟩, ?_,
    hname, htname⟩
  exact ⟨ht, h.mem_systems_of_resolveSystem hres, by rw [hlink, hname]⟩

lemma not_holding_guest {db : Database} (h : db.Holds (hiddenCatalog "H")) {t : SpaceSystem}
    (ht : db.HasParent t s) (hname : s.qualifiedName = "/S") :
    ¬db.Holding ((View.mk db guest 100).readable .parameter) t := by
  rintro ⟨e, he, o, ho, honame, hot⟩
  have howner : ∀ e ∈ (db.table .parameter).sorted,
      guest.hasAccess (.member .parameter) e.qualifiedName → e.owner = "/S" := by
    rw [h.table_eq]
    decide +kernel
  obtain ⟨he, haccess⟩ := mem_readable.1 he
  obtain rfl := h.system_ext ho ht.parent (by rw [honame, howner e he haccess, hname])
  exact h.not_transGen_self ho (.tail' hot ht)

/-- A listing of containers offers the children that hold a container, whether the user may read it
or not; the other listings offer those that hold something of their kind that the user may read. -/
theorem children_offered (built : Database.build c = .ok v.db) :
    v.Offers v.listContainers (v.db.Holding (v.db.table .container).sorted) ∧
    (∀ r : CommandRequest,
      v.Offers (fun list => v.listCommands { r with list }) (v.db.Holding (v.readable .command))) ∧
    (∀ r : AlgorithmRequest,
      v.Offers (fun list => v.listAlgorithms { r with list })
        (v.db.Holding (v.readable .algorithm))) ∧
    ∀ r : ParameterRequest,
      v.Offers (fun list => v.listParameters { r with list })
        (v.db.Holding (v.readable .parameter)) :=
  ⟨offers_containers built, fun _ => offers_page built .withCandidates fun _ => ⟨_, rfl⟩,
    fun _ => offers_page built .withCandidates fun _ => ⟨_, rfl⟩,
    fun _ => offers_page built .withCandidates fun _ => ⟨_, rfl⟩⟩

theorem children_offered_hidden : ∃ db, Database.build (hiddenCatalog "H") = .ok db ∧
    (∃ page, (dottedView db).listParameters ⟨.browse "/S", [], none, false⟩ = .ok page ∧
      "/S/A" ∈ page.systems) ∧
    ∃ page, (View.mk db guest 100).listParameters ⟨.browse "/S", [], none, false⟩ = .ok page ∧
      page.systems = [] := by
  obtain ⟨db, hb⟩ := exists_build_hiddenCatalog
  have h := Database.holds_of_build hb
  obtain ⟨s, t, hbrowse, hts, hs, ht⟩ := exists_child h "/S" "/S/A"
    (by rw [Database.resolveSystem, h.systems_eq, h.root]; decide +kernel)
    (by rw [h.systems_eq]; decide +kernel)
  obtain ⟨e, he, howner⟩ : ∃ e ∈ (db.table .parameter).sorted, e.owner = "/S/A" := by
    rw [h.table_eq]
    decide +kernel
  have hread : e ∈ (dottedView db).readable .parameter := mem_readable.2 ⟨he, rfl⟩
  have hreader := (children_offered (v := dottedView db) hb).2.2.2 ⟨.browse "/S", [], none, false⟩
  have hguest := (children_offered (v := View.mk db guest 100) hb).2.2.2
    ⟨.browse "/S", [], none, false⟩
  refine ⟨db, hb, ⟨_, rfl, ?_⟩, ⟨_, rfl, ?_⟩⟩
  · refine ((hreader _ s _ hbrowse rfl).mem _).2 ⟨t, hts, ?_, ht⟩
    exact ⟨e, hread, t, hts.child, ht.trans howner.symm, .refl⟩
  · exact (hguest _ s _ hbrowse rfl).eq_nil fun t ht => not_holding_guest h ht hs

/-- A listing of containers leads even a stranger to the one container, which others may read. -/
theorem containers_offered_unread : ∃ db, Database.build Database.decadeCatalog = .ok db ∧
    ∃ s t page, (ListRequest.browse "/sys10").Browses db s ∧ db.HasParent t s ∧
      (View.mk db stranger 100).listContainers (.browse "/sys10") = .ok page ∧
      t.qualifiedName ∈ page.systems ∧
      ¬db.Holding ((View.mk db stranger 100).readable .container) t := by
  obtain ⟨db, hb⟩ := CatalogDefinition.exists_build_iff_passes.2
    (show Database.decadeCatalog.Passes by decide +kernel)
  have h := Database.holds_of_build hb
  obtain ⟨s, t, hbrowse, hts, -, ht⟩ := exists_child h "/sys10" "/sys10/sub"
    (by rw [Database.resolveSystem, h.systems_eq, h.root]; decide +kernel)
    (by rw [h.systems_eq]; decide +kernel)
  obtain ⟨e, he, howner⟩ : ∃ e ∈ (db.table .container).sorted, e.owner = "/sys10/sub" := by
    rw [h.table_eq]
    decide +kernel
  refine ⟨db, hb, s, t, _, hbrowse, hts, rfl, ?_, ?_⟩
  · have hoffers := offers_containers (v := View.mk db stranger 100) hb
    refine ((hoffers _ s _ hbrowse rfl).mem _).2 ⟨t, hts, ?_, rfl⟩
    exact ⟨e, he, t, hts.child, ht.trans howner.symm, .refl⟩
  · rintro ⟨e, he, -⟩
    exact Bool.false_ne_true (mem_readable.1 he).2

lemma holding_of_leadsTo (h : v.db.Holds c) (hs : s ∈ v.db.systems.sorted) {e : Entity k}
    (he : e ∈ v.readable k) (hleads : v.db.LeadsTo s.qualifiedName e.owner) :
    v.db.Holding (v.readable k) s := by
  obtain ⟨o, ho, hname⟩ := (owned_readable h k).exists_owner e he
  rw [← hname, h.leadsTo_iff_standsIn ho hs] at hleads
  exact ⟨e, he, o, ho, hname, hleads⟩

lemma restrict_of_hidden (hb : Database.build c = .ok v.db) (hs : s ∈ v.db.systems.sorted)
    (hidden : ¬v.db.Holding (v.readable k) s) (words : Bool) :
    v.db.restrict (v.readable k) (some s) words .withCandidates = ⟨[], []⟩ := by
  have h := Database.holds_of_build hb
  have hread : ∀ e ∈ v.readable k, e ∈ (v.db.table k).sorted := fun e he => (mem_readable.1 he).1
  have hitems : (v.db.restrict (v.readable k) (some s) words .withCandidates).items = [] := by
    refine List.eq_nil_iff_forall_not_mem.2 fun e he => hidden ?_
    obtain ⟨he, hown, hbelow⟩ := (mem_restrict h hread hs).1 he
    refine holding_of_leadsTo h hs he ?_
    -- What the space system owns stands in it just as what a search finds below it.
    cases words with
    | false =>
      rw [hown rfl]
      exact .here
    | true => exact hbelow rfl
  have hoffered : v.db.offered .withCandidates (v.readable k) s = [] := by
    refine (Database.areChildren_offered hb (owned_readable h k) hs).eq_nil fun t ht hasked => ?_
    exact hidden (Database.Holding.up hasked (.single ht))
  cases words with
  | false => exact congrArg₂ Scoped.mk hitems hoffered
  | true => exact congrArg (Scoped.mk · []) hitems

section Hidden

variable {system missing : String}

lemma candidates_of_hidden (hb : Database.build c = .ok v.db)
    (hres : v.db.resolveSystem (scopePath system) = .ok s)
    (hidden : ¬v.db.Holding (v.readable k) s) (r : ListRequest) (keep : Entity k → Bool) :
    v.candidates { r with system := some system } .withCandidates keep = ⟨[], []⟩ := by
  have hs := (Database.holds_of_build hb).mem_systems_of_resolveSystem hres
  simp only [candidates, scope_eq_within.2 hres, restrict_of_hidden hb hs hidden, List.filter_nil]

lemma candidates_of_missing (hres : ∀ t, v.db.resolveSystem (scopePath missing) ≠ .ok t)
    (r : ListRequest) (rule : ChildRule) (keep : Entity k → Bool) :
    v.candidates { r with system := some missing } rule keep = ⟨[], []⟩ := by
  cases hx : v.db.resolveSystem (scopePath missing) with
  | ok t => exact absurd hx (hres t)
  | error e => simp only [candidates, Database.scope, hx]

lemma found_of_candidates {keep : Entity k → Bool} (h : v.candidates r rule keep = ⟨[], []⟩) :
    v.found r rule keep = ⟨[], []⟩ := by
  rw [found, h]
  rfl

lemma foundParameters_of_candidates {r : ParameterRequest}
    (h : v.candidates r.list .withCandidates (v.passes r) = ⟨[], []⟩) :
    v.foundParameters r = ⟨[], []⟩ := by
  rw [foundParameters, h]
  simp

lemma remaining_nil {α : Type} (key : α → PageKey) (request : PageRequest) :
    Page.remaining key request [] = .ok [] ∨
      ∃ e, Page.remaining key request [] = .error e ∧ e.category = .badRequest := by
  rw [Page.remaining]
  cases request.next with
  | none => exact .inl (congrArg Except.ok List.drop_nil)
  | some token =>
    obtain ⟨after, hafter⟩ | ⟨e, he, hcategory⟩ := PageKey.ofToken_answers token
    · left
      simp only [hafter]
      rfl
    · right
      refine ⟨e, ?_, hcategory⟩
      simp only [he]
      rfl

lemma isEmptyAnswer_page {α : Type} (key : α → PageKey) (request : PageRequest) :
    IsEmptyAnswer (v.page key request ⟨[], []⟩) := by
  have hsort : Page.sort key [] = [] := List.mergeSort_nil
  have hcut : ∀ limit, Page.cut key 0 limit [] = ⟨0, [], none, []⟩ := fun limit => by
    simp [Page.cut]
  rw [View.page, Page.build]
  dsimp only
  split
  · exact .complaint rfl
  · rw [hsort, List.length_nil]
    obtain hrest | ⟨e, he, hcategory⟩ := remaining_nil key request
    · rw [hrest, Except.map, hcut]
      exact .page
    · rw [he]
      exact .complaint hcategory

lemma looksMissing_of_page {α : Type} {list : Option String → Except QueryError (Page α)}
    {key : α → PageKey} {request : PageRequest} {found : Option String → Scoped α}
    (hlist : ∀ system, list system = v.page key request (found system))
    (hsystem : found (some system) = ⟨[], []⟩) (hmissing : found (some missing) = ⟨[], []⟩) :
    LooksMissing list system missing := by
  have hempty := isEmptyAnswer_page (v := v) key request
  rw [LooksMissing, hlist, hlist, hsystem, hmissing]
  exact ⟨rfl, hempty⟩

end Hidden

/-- A space system in which, at any depth, the user may read nothing of a kind answers every request
for that kind like one that does not exist: with an empty page, or with the same complaint. -/
theorem hidden_scopes_look_missing (built : Database.build c = .ok v.db) {system missing : String}
    (resolves : v.db.resolveSystem (scopePath system) = .ok s)
    (misses : ∀ t, v.db.resolveSystem (scopePath missing) ≠ .ok t) :
    (¬v.db.Holding (v.readable .parameter) s → ∀ r : ParameterRequest,
      LooksMissing (fun system => v.listParameters { r with list := { r.list with system } })
        system missing) ∧
    (¬v.db.Holding (v.readable .command) s → ∀ r : CommandRequest,
      LooksMissing (fun system => v.listCommands { r with list := { r.list with system } })
        system missing) ∧
    (¬v.db.Holding (v.readable .algorithm) s → ∀ r : AlgorithmRequest,
      LooksMissing (fun system => v.listAlgorithms { r with list := { r.list with system } })
        system missing) := by
  have hsystem {k : MemberKind} (hidden : ¬v.db.Holding (v.readable k) s) (list : ListRequest) :=
    candidates_of_hidden built resolves hidden list
  have hmissing {k : MemberKind} (list : ListRequest) (keep : Entity k → Bool) :=
    candidates_of_missing misses list .withCandidates keep
  refine ⟨fun hidden r => ?_, fun hidden r => ?_, fun hidden r => ?_⟩
  · exact looksMissing_of_page (fun _ => rfl)
      (foundParameters_of_candidates (hsystem hidden r.list (v.passes r)))
      (foundParameters_of_candidates (hmissing r.list (v.passes r)))
  · exact looksMissing_of_page (fun _ => rfl)
      (found_of_candidates (hsystem hidden r.list _)) (found_of_candidates (hmissing r.list _))
  · exact looksMissing_of_page (fun _ => rfl)
      (found_of_candidates (hsystem hidden r.list _)) (found_of_candidates (hmissing r.list _))

theorem hidden_scopes_look_missing_guest : ∃ db,
    Database.build (hiddenCatalog "H") = .ok db ∧
    (∃ p ∈ (db.table .parameter).sorted, p.qualifiedName = "/S/A/H") ∧
    ∀ r : ParameterRequest, LooksMissing (fun system =>
      (View.mk db guest 100).listParameters { r with list := { r.list with system } })
        "/S/A/" "/X" := by
  obtain ⟨db, hb⟩ := exists_build_hiddenCatalog
  have h := Database.holds_of_build hb
  have hsystem : (db.resolveSystem (scopePath "/S/A/")).toOption.any fun t =>
      t.parent = some "/S" := by
    rw [Database.resolveSystem, h.systems_eq, h.root]
    decide +kernel
  have hmissing : (db.resolveSystem (scopePath "/X")).toOption.isNone := by
    rw [Database.resolveSystem, h.systems_eq, h.root]
    decide +kernel
  obtain ⟨t, hres, hparent⟩ := exists_ok_of_any hsystem
  obtain ⟨s, hts, hname⟩ :=
    h.hasParent_of_link (h.mem_systems_of_resolveSystem hres) (of_decide_eq_true hparent)
  have hnone : ∀ u, db.resolveSystem (scopePath "/X") ≠ .ok u := by
    intro u hu
    simp [hu, Except.toOption] at hmissing
  refine ⟨db, hb, ?_, (hidden_scopes_look_missing (v := View.mk db guest 100) hb hres hnone).1
    (not_holding_guest h hts hname)⟩
  rw [h.table_eq]
  decide +kernel

end View

end MissionCatalog
