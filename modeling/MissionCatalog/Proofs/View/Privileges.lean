import MissionCatalog.Proofs.Browsing
import MissionCatalog.Proofs.Resolve.Parameter
import MissionCatalog.Proofs.View.Noninterference

/-!
# More privileges

Whoever is granted more is answered wherever one who is granted less is. The answers differ in what
only the first may read: listings and batches for the second are those for the first without it.
-/
namespace MissionCatalog

/-- The same database, seen by someone who is granted all that the first viewer is granted. -/
structure View.Within (u v : View) : Prop where
  db : u.db = v.db
  defaultLimit : u.defaultLimit = v.defaultLimit
  catalog : u.viewer.readsCatalog → v.viewer.readsCatalog
  access : ∀ kind name, u.viewer.hasAccess kind name → v.viewer.hasAccess kind name

def View.reads (v : View) {k : MemberKind} (e : Entity k) : Bool :=
  v.viewer.hasAccess k e.qualifiedName

/-- The first result consists of the items of the second that may be read. What it offers the second
offers too. -/
structure Scoped.Narrows {α : Type} (may : α → Bool) (s t : Scoped α) : Prop where
  items : s.items = t.items.filter may
  systems : s.systems ⊆ t.systems

/-- Wherever the first listing has a page the second has one too, which offers the same space
systems and maybe more. If it has room for the whole listing, the first page shows those of its
items that may be read. -/
def Page.Narrows {α : Type} (default : ℕ) (may : α → Bool)
    (fewer more : PageRequest → Except QueryError (Page α)) : Prop :=
  ∀ request p, fewer request = .ok p → ∃ q, more request = .ok q ∧
    p.totalSize ≤ q.totalSize ∧ p.systems ⊆ q.systems ∧
    (request.pos = none → request.next = none → q.totalSize ≤ request.limit.getD default →
      p.items = q.items.filter may)

lemma Scoped.Narrows.filter {α : Type} {may : α → Bool} {s t : Scoped α} (h : s.Narrows may t)
    (keep : α → Bool) : Narrows may ⟨s.items.filter keep, s.systems⟩
      ⟨t.items.filter keep, t.systems⟩ := by
  refine ⟨?_, h.systems⟩
  change s.items.filter keep = (t.items.filter keep).filter may
  rw [h.items, List.filter_comm]

namespace Database

variable {db : Database} {k : MemberKind} {rule : ChildRule} {may : Entity k → Bool}

lemma offered_filter_subset (candidates : List (Entity k)) (s : SpaceSystem) :
    db.offered rule (candidates.filter may) s ⊆ db.offered rule candidates s := by
  intro name hname
  rw [(Holds.offered_perm s).mem_iff, List.mem_map] at hname ⊢
  obtain ⟨t, ht, rfl⟩ := hname
  obtain ⟨hchild, hoffered⟩ := List.mem_filter.1 ht
  refine ⟨t, List.mem_filter.2 ⟨hchild, ?_⟩, rfl⟩
  cases rule with
  | withContainers => exact hoffered
  | withCandidates =>
    obtain ⟨e, he, hin⟩ := List.any_eq_true.1 hoffered
    exact List.any_eq_true.2 ⟨e, List.mem_of_mem_filter he, hin⟩

lemma narrows_restrict (candidates : List (Entity k)) (scope : Option SpaceSystem) (words : Bool) :
    (db.restrict (candidates.filter may) scope words rule).Narrows may
      (db.restrict candidates scope words rule) := by
  cases scope with
  | none => exact ⟨rfl, List.Subset.refl _⟩
  | some s =>
    cases words with
    | false => exact ⟨List.filter_comm .., offered_filter_subset candidates s⟩
    | true => exact ⟨List.filter_comm .., List.Subset.refl _⟩

end Database

namespace View

variable {u v : View} {k : MemberKind}

lemma narrows_page {α : Type} (h : u.Within v) {may : α → Bool} {fewer more : Scoped α}
    (hn : fewer.Narrows may more) (key : α → PageKey) :
    Page.Narrows v.defaultLimit may (fun r => u.page key r fewer) (fun r => v.page key r more) := by
  intro request p hp
  obtain ⟨part, hpart, rfl⟩ := map_eq_ok.1 hp
  rw [h.defaultLimit] at hpart
  obtain ⟨whole, hwhole⟩ := Page.exists_build_of_build hpart more.items
  have hfewer := (Page.sublist_of_build hpart).1
  have hmore := (Page.sublist_of_build hwhole).1
  have hlength : fewer.items.length ≤ more.items.length := by
    rw [hn.items]
    exact List.length_filter_le _ _
  refine ⟨whole.withSystems more.systems, map_eq_ok.2 ⟨whole, hwhole, rfl⟩, ?_, hn.systems, ?_⟩
  · exact hfewer.trans_le (hlength.trans_eq hmore.symm)
  · intro hpos hnext hroom
    have hlimit := Page.limit_pos_of_build hpart
    have hroom : more.items.length ≤ request.limit.getD v.defaultLimit := hmore.symm.trans_le hroom
    rw [Page.build_whole hpos hnext hlimit (hlength.trans hroom)] at hpart
    rw [Page.build_whole hpos hnext hlimit hroom] at hwhole
    obtain rfl := Except.ok.inj hpart
    obtain rfl := Except.ok.inj hwhole
    change Page.sort key fewer.items = (Page.sort key more.items).filter may
    rw [hn.items, Page.sort_filter]

lemma readable_eq_filter (h : u.Within v) (k : MemberKind) :
    u.readable k = (v.readable k).filter u.reads := by
  rw [readable, readable, h.db, List.filter_filter]
  refine List.filter_congr fun e _ => ?_
  rw [Bool.eq_iff_iff, Bool.and_eq_true]
  exact ⟨fun ha => ⟨ha, h.access _ _ ha⟩, And.left⟩

lemma narrows_candidates (h : u.Within v) (r : ListRequest) (rule : ChildRule)
    (keep : Entity k → Bool) :
    (u.candidates r rule keep).Narrows u.reads (v.candidates r rule keep) := by
  have hshown : ∀ scope words, (u.db.restrict (u.readable k) scope words rule).Narrows u.reads
      (u.db.restrict (v.readable k) scope words rule) := by
    rw [readable_eq_filter h]
    exact Database.narrows_restrict _
  rw [candidates, candidates, ← h.db]
  -- The scope is found in the database alone, so both viewers come to the same case.
  cases u.db.scope r.system with
  | nothing => exact ⟨rfl, List.Subset.refl _⟩
  | everything => exact (hshown none _).filter keep
  | within s => exact (hshown (some s) _).filter keep

lemma narrows_found (h : u.Within v) (r : ListRequest) (rule : ChildRule)
    (keep : Entity k → Bool) : (u.found r rule keep).Narrows u.reads (v.found r rule keep) :=
  (narrows_candidates h r rule keep).filter _

lemma passes_eq (h : u.Within v) (r : ParameterRequest) : u.passes r = v.passes r := by
  funext p
  rw [passes, passes, h.db]

lemma foundMembers_eq (h : u.Within v) (m : Matcher) : u.foundMembers m = v.foundMembers m := by
  funext p
  rw [foundMembers, foundMembers, h.db]

lemma parameter_of_mem_foundMembers {m : Matcher} {p : Parameter} {found : ParameterMatch}
    (hf : found ∈ v.foundMembers m p) : found.parameter = p := by
  rw [foundMembers] at hf
  split at hf
  · obtain ⟨path, -, rfl⟩ := List.mem_map.1 hf
    rfl
  · simp at hf

lemma flatMap_foundMembers_filter (m : Matcher) (may : Parameter → Bool)
    (parameters : List Parameter) : (parameters.filter may).flatMap (v.foundMembers m) =
      (parameters.flatMap (v.foundMembers m)).filter fun found => may found.parameter := by
  induction parameters with
  | nil => rfl
  | cons p parameters ih =>
    have hmay : ∀ found ∈ v.foundMembers m p, may found.parameter = may p := fun found hf => by
      rw [parameter_of_mem_foundMembers hf]
    rw [List.flatMap_cons, List.filter_append, ← ih]
    by_cases hp : may p
    · rw [List.filter_cons_of_pos hp, List.flatMap_cons,
        List.filter_eq_self.2 fun found hf => (hmay found hf).trans hp]
    · have hnone : (v.foundMembers m p).filter (fun found => may found.parameter) = [] :=
        List.filter_eq_nil_iff.2 fun found hf => by rwa [hmay found hf]
      rw [List.filter_cons_of_neg hp, hnone, List.nil_append]

lemma narrows_foundParameters (h : u.Within v) (r : ParameterRequest) :
    (u.foundParameters r).Narrows (fun m => u.mayRead m.parameter) (v.foundParameters r) := by
  have hc := narrows_candidates h r.list .withCandidates (v.passes r)
  have hitems : (u.candidates r.list .withCandidates (u.passes r)).items =
      (v.candidates r.list .withCandidates (v.passes r)).items.filter u.mayRead := by
    rw [passes_eq h]
    exact hc.items
  refine ⟨?_, by simpa only [foundParameters, passes_eq h] using hc.systems⟩
  simp only [foundParameters, hitems, foundMembers_eq h, List.filter_append, List.filter_map,
    flatMap_foundMembers_filter]
  -- The filters for the search and for access commute; members go with their parameter.
  refine congrArg₂ (· ++ ·) ?_ ?_
  · rw [List.filter_comm]
    rfl
  · split <;> rfl

lemma requireCatalog_eq_ok_iff : v.requireCatalog = .ok () ↔ v.viewer.readsCatalog := by
  rw [requireCatalog]
  split <;> simp_all

lemma requireCatalog_of_within (h : u.Within v) (hu : u.requireCatalog = .ok ()) :
    v.requireCatalog = .ok () :=
  requireCatalog_eq_ok_iff.2 (h.catalog (requireCatalog_eq_ok_iff.1 hu))

lemma bind_requireCatalog_of_within (h : u.Within v) {α : Type} {x : Except QueryError α} {a : α}
    (hu : u.requireCatalog >>= (fun _ => x) = .ok a) :
    v.requireCatalog >>= (fun _ => x) = .ok a := by
  obtain ⟨_, hcatalog, hx⟩ := bind_eq_ok.1 hu
  exact bind_eq_ok.2 ⟨(), requireCatalog_of_within h hcatalog, hx⟩

lemma narrows_listSystems (h : u.Within v) (query : Option String) :
    Page.Narrows v.defaultLimit (fun s => u.viewer.hasAccess .spaceSystem s.qualifiedName)
      (u.listSystems query) (v.listSystems query) := by
  intro request p hp
  simp only [listSystems, bind_eq_ok] at hp ⊢
  obtain ⟨_, hcatalog, hp⟩ := hp
  have hreads : u.viewer.readsCatalog := requireCatalog_eq_ok_iff.1 hcatalog
  have hfound : (u.foundSystems query).Narrows
      (fun s => u.viewer.hasAccess .spaceSystem s.qualifiedName) (v.foundSystems query) := by
    have hall : ∀ s : SpaceSystem, u.viewer.hasAccess .spaceSystem s.qualifiedName := fun s => by
      rw [Viewer.hasAccess, hreads, Bool.true_or]
    refine ⟨?_, List.Subset.refl _⟩
    rw [List.filter_eq_self.2 fun s _ => hall s, foundSystems, foundSystems, h.db]
  obtain ⟨q, hq, hnarrows⟩ := narrows_page h hfound SpaceSystem.pageKey request p hp
  exact ⟨q, ⟨(), requireCatalog_of_within h hcatalog, hq⟩, hnarrows⟩

lemma authorize_of_within (h : u.Within v) {e : Entity k} (hu : u.authorize e = .ok ()) :
    v.authorize e = .ok () :=
  authorize_eq_ok_iff.2 (h.access _ _ (authorize_eq_ok_iff.1 hu))

lemma get_of_within (h : u.Within v) {path : String} {e : Entity k} (hu : u.get k path = .ok e) :
    v.get k path = .ok e := by
  simp only [get, bind_eq_ok, h.db] at hu ⊢
  obtain ⟨found, hfound, _, hauth, he⟩ := hu
  exact ⟨found, hfound, (), authorize_of_within h hauth, he⟩

lemma getParameter_of_within (h : u.Within v) {path : String} {r : ParameterRef}
    (hu : u.getParameter path = .ok r) : v.getParameter path = .ok r := by
  simp only [getParameter, bind_eq_ok, h.db] at hu ⊢
  obtain ⟨found, hfound, _, hauth, hrest⟩ := hu
  exact ⟨found, hfound, (), authorize_of_within h hauth, hrest⟩

lemma getParameterType_of_within (h : u.Within v) {path : String} {t : ParameterType}
    (hu : u.getParameterType path = .ok t) : v.getParameterType path = .ok t := by
  rw [getParameterType, ← h.db]
  exact bind_requireCatalog_of_within h hu

lemma getSystem_of_within (h : u.Within v) {path : String} {s : SpaceSystem}
    (hu : u.getSystem path = .ok s) : v.getSystem path = .ok s := by
  rw [getSystem, ← h.db]
  exact bind_requireCatalog_of_within h hu

lemma summary_of_within (h : u.Within v) {summary : Summary} (hu : u.summary = .ok summary) :
    v.summary = .ok summary := by
  rw [View.summary, ← h.db]
  exact bind_requireCatalog_of_within h hu

lemma batch_eq_filter (h : u.Within v) (ids : List ObjectId) :
    u.batch ids = (v.batch ids).map (List.filter fun item => u.mayRead item.parameter) := by
  have hone : u.parameterOf = v.parameterOf := by
    funext id
    rw [parameterOf, parameterOf, h.db]
  have hmay : ∀ p, (u.mayRead p && v.mayRead p) = u.mayRead p := by
    intro p
    rw [Bool.and_eq_left_iff_imp]
    exact h.access _ _
  rw [batch, batch, hone, except_map_bind]
  refine congrArg (_ >>= ·) (funext fun items => congrArg Except.ok ?_)
  rw [List.filter_filter]
  simp only [hmay]

/-- With more privileges nothing is lost. Every listing shows what it shows with fewer, and what
only the second viewer may read besides. A single entity is shown as it is with fewer. A batch fails
for the same reason, or has the same items and those that only the second viewer may read. -/
theorem answers_of_within (within : u.Within v) :
    ((∀ r : ListRequest, Page.Narrows v.defaultLimit u.reads
        (fun page => u.listContainers { r with page })
        fun page => v.listContainers { r with page }) ∧
      (∀ r : CommandRequest, Page.Narrows v.defaultLimit u.reads
        (fun page => u.listCommands { r with list := { r.list with page } })
        fun page => v.listCommands { r with list := { r.list with page } }) ∧
      (∀ r : AlgorithmRequest, Page.Narrows v.defaultLimit u.reads
        (fun page => u.listAlgorithms { r with list := { r.list with page } })
        fun page => v.listAlgorithms { r with list := { r.list with page } }) ∧
      (∀ r : ParameterRequest, Page.Narrows v.defaultLimit (fun m => u.mayRead m.parameter)
        (fun page => u.listParameters { r with list := { r.list with page } })
        fun page => v.listParameters { r with list := { r.list with page } }) ∧
      ∀ query, Page.Narrows v.defaultLimit
        (fun s => u.viewer.hasAccess .spaceSystem s.qualifiedName)
        (u.listSystems query) (v.listSystems query)) ∧
    ((∀ k path e, u.get k path = .ok e → v.get k path = .ok e) ∧
      (∀ path r, u.getParameter path = .ok r → v.getParameter path = .ok r) ∧
      (∀ path t, u.getParameterType path = .ok t → v.getParameterType path = .ok t) ∧
      (∀ path s, u.getSystem path = .ok s → v.getSystem path = .ok s) ∧
      ∀ summary, u.summary = .ok summary → v.summary = .ok summary) ∧
    ∀ ids, u.batch ids = (v.batch ids).map (List.filter fun item => u.mayRead item.parameter) := by
  refine ⟨⟨fun r => ?_, fun r => ?_, fun r => ?_, fun r => ?_, narrows_listSystems within⟩,
    ⟨fun k path e => get_of_within within, fun path r => getParameter_of_within within,
      fun path t => getParameterType_of_within within, fun path s => getSystem_of_within within,
      fun summary => summary_of_within within⟩, batch_eq_filter within⟩
  · simp only [listContainers_page]
    exact narrows_page within (narrows_found within r .withContainers _) Entity.pageKey
  · simp only [listCommands_page]
    exact narrows_page within (narrows_found within r.list .withCandidates _) Entity.pageKey
  · simp only [listAlgorithms_page]
    exact narrows_page within (narrows_found within r.list .withCandidates _) Entity.pageKey
  · simp only [listParameters_page]
    exact narrows_page within (narrows_foundParameters within r) ParameterMatch.pageKey

theorem answers_of_within_guest : ∃ db, Database.build (hiddenCatalog "H") = .ok db ∧
    (∃ p ∈ (db.table .parameter).sorted, ¬guest.hasAccess (.member .parameter) p.qualifiedName) ∧
    (∀ r : ParameterRequest,
      Page.Narrows 100 (fun m => (View.mk db guest 100).mayRead m.parameter)
        (fun page => (View.mk db guest 100).listParameters { r with list := { r.list with page } })
        fun page => (dottedView db).listParameters { r with list := { r.list with page } }) ∧
    ∀ ids, (View.mk db guest 100).batch ids = ((dottedView db).batch ids).map
      (List.filter fun item => (View.mk db guest 100).mayRead item.parameter) := by
  obtain ⟨db, hb⟩ := exists_build_hiddenCatalog
  have hwithin : (View.mk db guest 100).Within (dottedView db) :=
    ⟨rfl, rfl, fun h => absurd h Bool.false_ne_true, fun _ _ _ => rfl⟩
  obtain ⟨⟨-, -, -, hparameters, -⟩, -, hbatch⟩ := answers_of_within hwithin
  refine ⟨db, hb, ?_, hparameters, hbatch⟩
  rw [(Database.holds_of_build hb).table_eq]
  decide +kernel

end View

end MissionCatalog
