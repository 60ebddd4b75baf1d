import MissionCatalog.Proofs.Database.Tree
import MissionCatalog.Proofs.MemberPath.Places
import MissionCatalog.Proofs.Page.Cut
import MissionCatalog.View

/-!
# What listings consist of

`IsCandidate` says which entities a request asks for among those that the user may read, and
`IsListed` which of them its query finds. Over a built database every listing is made of just these,
each once.
-/
namespace MissionCatalog

/-- The query has no words. -/
def ListRequest.IsBlank (r : ListRequest) : Prop := ∀ c ∈ (r.query.getD "").toList, Text.isBlank c

def CommandRequest.Keeps (r : CommandRequest) (c : Command) : Prop :=
  r.noAbstract → ¬c.details.isAbstract

def AlgorithmRequest.Keeps (r : AlgorithmRequest) (a : Algorithm) : Prop :=
  ∀ scope ∈ r.scope, a.details.scope = scope

/-- A parameter without a type passes only where the request names no types. -/
structure ParameterRequest.Keeps (r : ParameterRequest) (db : Database) (p : Parameter) : Prop where
  source : ∀ source ∈ r.source, p.details.source = some source
  type : r.types ≠ [] → ∃ t, db.HasType p t ∧ ∃ name ∈ r.types,
    name.toList.map Char.toLower = t.details.dataType.typeName.toList.map Char.toLower

/-- What can match a request for parameters: a parameter, or the member at a place of its type. -/
structure MatchPlace where
  parameter : Parameter
  member : Option MemberPlace

/-- The place as it is shown in a listing. -/
def MatchPlace.shown (m : MatchPlace) : ParameterMatch :=
  ⟨m.parameter, m.member.map MemberPlace.path⟩

/-- The items are those with the property, in ascending order of their qualified names. -/
structure IsListing {α : Type} [Declared α] (P : α → Prop) (items : List α) : Prop where
  mem : ∀ a, a ∈ items ↔ P a
  increasing : items.Pairwise fun a b => Declared.qualifiedName a < Declared.qualifiedName b

/-- Shown under keys made from their names, the items of a listing are in the order of pages. -/
lemma IsListing.increasing_map {α β : Type} [Declared α] {P : α → Prop} {items : List α}
    (h : IsListing P items) {key : β → PageKey} {f : α → β}
    (hk : ∀ a, key (f a) = ⟨Declared.qualifiedName a, none⟩) :
    Page.Increasing key (items.map f) := by
  refine List.pairwise_map.2 (h.increasing.imp fun hab => ?_)
  rw [hk, hk]
  exact .inl hab

lemma IsListing.nodup {α : Type} [Declared α] {P : α → Prop} {items : List α}
    (h : IsListing P items) : items.Nodup :=
  h.increasing.imp fun hlt heq => hlt.ne (congrArg Declared.qualifiedName heq)

lemma IsListing.unique {α : Type} [Declared α] {P Q : α → Prop} {l l' : List α}
    (h : IsListing P l) (h' : IsListing Q l') (hpq : ∀ a, P a ↔ Q a) : l = l' := by
  have hmem : ∀ e, e ∈ l ↔ e ∈ l' := fun e => by rw [h.mem, h'.mem, hpq]
  have hperm : l.Perm l' := (List.perm_ext_iff_of_nodup h.nodup h'.nodup).2 hmem
  exact hperm.eq_of_pairwise (fun _ _ _ _ hab hba => absurd hba hab.asymm)
    h.increasing h'.increasing

namespace View

variable {v : View} {k : MemberKind}

/-- The scope of the request shows the entity: its own members without words to search for, and with
words everything below it. -/
def InScope (v : View) (r : ListRequest) (e : Entity k) : Prop :=
  ∀ system ∈ r.system, ∃ s, v.db.resolveSystem (scopePath system) = .ok s ∧
    (r.IsBlank → e.owner = s.qualifiedName) ∧ (¬r.IsBlank → v.db.LeadsTo s.qualifiedName e.owner)

structure IsCandidate (v : View) (r : ListRequest) (keep : Entity k → Prop) (e : Entity k) :
    Prop where
  declared : e ∈ (v.db.table k).sorted
  readable : v.viewer.hasAccess k e.qualifiedName
  inScope : v.InScope r e
  kept : keep e

structure IsListed (v : View) (r : ListRequest) (keep : Entity k → Prop) (e : Entity k) : Prop
    extends v.IsCandidate r keep e where
  found : Query.Finds (r.query.getD "") e.head

/-- A space system that the query finds. The root has no name of its own and is not listed. -/
structure IsListedSystem (v : View) (query : Option String) (s : SpaceSystem) : Prop where
  declared : s ∈ v.db.systems.sorted
  notRoot : s.qualifiedName ≠ ""
  found : Query.Finds (query.getD "") s.head

/-- What a listing of parameters shows: a parameter that the query finds, or a member that it finds
in the type of a candidate, whether it finds the candidate or not. -/
inductive IsMatch (v : View) (r : ParameterRequest) : MatchPlace → Prop
  | whole {p : Parameter} (listed : v.IsListed r.list (r.Keeps v.db) p) : IsMatch v r ⟨p, none⟩
  | member {p : Parameter} {t : ParameterType} {place : MemberPlace}
      (searched : r.searchMembers) (candidate : v.IsCandidate r.list (r.Keeps v.db) p)
      (type : v.db.HasType p t) (inType : t.details.dataType.HasMember place)
      (found : Query.FindsMember (r.list.query.getD "") place.name place.path) :
      IsMatch v r ⟨p, some place⟩

/-- The items of a request for parameters: one for each match, though two may be shown alike. -/
def AreMatches (v : View) (r : ParameterRequest) (found : List ParameterMatch) : Prop :=
  ∃ places : List MatchPlace, places.Nodup ∧ (∀ m, m ∈ places ↔ v.IsMatch r m) ∧
    found.Perm (places.map MatchPlace.shown)

lemma isEmpty_matcher (r : ListRequest) : r.matcher.isEmpty ↔ r.IsBlank :=
  Matcher.isEmpty_ofQuery _

lemma candidates_sublist (r : ListRequest) (rule : ChildRule) (keep : Entity k → Bool) :
    (v.candidates r rule keep).items.Sublist (v.db.table k).sorted := by
  have hread : (v.readable k).Sublist (v.db.table k).sorted := List.filter_sublist
  rw [candidates]
  split
  · exact List.nil_sublist _
  · exact List.filter_sublist.trans hread
  · refine List.filter_sublist.trans (.trans ?_ hread)
    rw [Database.restrict]
    split <;> exact List.filter_sublist

lemma mem_readable {e : Entity k} :
    e ∈ v.readable k ↔ e ∈ (v.db.table k).sorted ∧ v.viewer.hasAccess k e.qualifiedName := by
  rw [readable, List.mem_filter]

lemma scope_eq_within {system : String} {s : SpaceSystem} :
    v.db.scope (some system) = .within s ↔ v.db.resolveSystem (scopePath system) = .ok s := by
  rw [Database.scope]
  cases v.db.resolveSystem (scopePath system) <;> simp

/-- A space system as scope shows what stands in it, or below it when there are words to find. -/
lemma mem_restrict {db : Database} {c : CatalogDefinition} (h : db.Holds c)
    {entities : List (Entity k)} (he : ∀ e ∈ entities, e ∈ (db.table k).sorted) {s : SpaceSystem}
    (hs : s ∈ db.systems.sorted) {words : Bool} {rule : ChildRule} {e : Entity k} :
    e ∈ (db.restrict entities (some s) words rule).items ↔
      e ∈ entities ∧ (words = false → e.owner = s.qualifiedName) ∧
        (words = true → db.LeadsTo s.qualifiedName e.owner) := by
  cases words
  · simp [Database.restrict]
  · simp only [Database.restrict, if_true, List.mem_filter, reduceCtorEq, false_implies,
      true_and, forall_const, and_congr_right_iff]
    intro hm
    exact (h.leadsTo_owner_iff (he e hm) hs).symm

lemma mem_candidates {c : CatalogDefinition} (h : v.db.Holds c) {r : ListRequest} {rule : ChildRule}
    {keep : Entity k → Bool} {Keep : Entity k → Prop} (hk : ∀ e, keep e ↔ Keep e) {e : Entity k} :
    e ∈ (v.candidates r rule keep).items ↔ v.IsCandidate r Keep e := by
  have hread : ∀ e ∈ v.readable k, e ∈ (v.db.table k).sorted := fun e he => (mem_readable.1 he).1
  have hiff : e ∈ (v.candidates r rule keep).items ↔ e ∈ v.readable k ∧ v.InScope r e ∧ Keep e := by
    cases hsys : r.system with
    | none => simp [candidates, Database.scope, hsys, InScope, Database.restrict, hk]
    | some system =>
      cases hres : v.db.resolveSystem (scopePath system) with
      | error x => simp [candidates, Database.scope, hsys, hres, InScope]
      | ok s =>
        have hs := h.mem_systems_of_resolveSystem hres
        simp only [candidates, hsys, scope_eq_within.2 hres, List.mem_filter,
          mem_restrict h hread hs, hk, InScope, hres, ← isEmpty_matcher, Option.mem_some_iff,
          forall_eq', Except.ok.injEq, exists_eq_left', Bool.not_eq_true, Bool.not_eq_false',
          Bool.not_eq_true', and_assoc]
  rw [hiff, mem_readable]
  exact ⟨fun ⟨⟨hd, ha⟩, hi, hkeep⟩ => ⟨hd, ha, hi, hkeep⟩,
    fun ⟨hd, ha, hi, hkeep⟩ => ⟨⟨hd, ha⟩, hi, hkeep⟩⟩

lemma isListing_candidates {c : CatalogDefinition} (h : v.db.Holds c) {r : ListRequest}
    (rule : ChildRule) {keep : Entity k → Bool} {Keep : Entity k → Prop}
    (hk : ∀ e, keep e ↔ Keep e) :
    IsListing (v.IsCandidate r Keep) (v.candidates r rule keep).items where
  mem _ := mem_candidates h hk
  increasing := (h.consistent k).increasing_sorted.sublist (candidates_sublist r rule keep)

lemma isListing_filter_inHead {r : ListRequest} {Keep : Entity k → Prop} {items : List (Entity k)}
    (h : IsListing (v.IsCandidate r Keep) items) :
    IsListing (v.IsListed r Keep) (items.filter fun e => r.matcher.inHead e.head) where
  mem e := by
    rw [List.mem_filter, h.mem, ListRequest.matcher, Matcher.inHead_ofQuery]
    exact ⟨fun ⟨hc, hf⟩ => ⟨hc, hf⟩, fun hl => ⟨hl.toIsCandidate, hl.found⟩⟩
  increasing := h.increasing.sublist List.filter_sublist

lemma isListing_found {c : CatalogDefinition} (h : v.db.Holds c) {r : ListRequest}
    {rule : ChildRule} {keep : Entity k → Bool} {Keep : Entity k → Prop}
    (hk : ∀ e, keep e ↔ Keep e) : IsListing (v.IsListed r Keep) (v.found r rule keep).items :=
  isListing_filter_inHead (isListing_candidates h rule hk)

lemma listContainers_page (r : ListRequest) (page : PageRequest) :
    v.listContainers { r with page } = v.page Entity.pageKey page (v.foundContainers r) := rfl

lemma listCommands_page (r : CommandRequest) (page : PageRequest) :
    v.listCommands { r with list := { r.list with page } } =
      v.page Entity.pageKey page (v.foundCommands r) := rfl

lemma listAlgorithms_page (r : AlgorithmRequest) (page : PageRequest) :
    v.listAlgorithms { r with list := { r.list with page } } =
      v.page Entity.pageKey page (v.foundAlgorithms r) := rfl

lemma listParameters_page (r : ParameterRequest) (page : PageRequest) :
    v.listParameters { r with list := { r.list with page } } =
      v.page ParameterMatch.pageKey page (v.foundParameters r) := rfl

lemma isListing_foundContainers {c : CatalogDefinition} (h : v.db.Holds c) (r : ListRequest) :
    IsListing (v.IsListed r fun _ => True) (v.foundContainers r).items :=
  isListing_found h (by simp)

lemma isListing_foundCommands {c : CatalogDefinition} (h : v.db.Holds c) (r : CommandRequest) :
    IsListing (v.IsListed r.list r.Keeps) (v.foundCommands r).items :=
  isListing_found h fun e => by
    cases hn : r.noAbstract <;> simp [CommandRequest.Keeps, hn]

lemma isListing_foundAlgorithms {c : CatalogDefinition} (h : v.db.Holds c) (r : AlgorithmRequest) :
    IsListing (v.IsListed r.list r.Keeps) (v.foundAlgorithms r).items :=
  isListing_found h fun e => by simp [AlgorithmRequest.Keeps, Option.all_eq_true]

lemma isListing_foundSystems {c : CatalogDefinition} (h : v.db.Holds c) (query : Option String) :
    IsListing (v.IsListedSystem query) (v.foundSystems query).items where
  mem s := by
    have hroot : s.isRoot = false ↔ s.qualifiedName ≠ "" := by simp [SpaceSystem.isRoot]
    simp only [foundSystems, List.mem_filter, Bool.and_eq_true, Bool.not_eq_true',
      hroot, Matcher.inHead_ofQuery]
    exact ⟨fun ⟨hd, hn, hf⟩ => ⟨hd, hn, hf⟩, fun ⟨hd, hn, hf⟩ => ⟨hd, hn, hf⟩⟩
  increasing := h.systemsConsistent.increasing_sorted.sublist List.filter_sublist

lemma passes_iff {c : CatalogDefinition} (h : v.db.Holds c) (r : ParameterRequest)
    (p : Parameter) : v.passes r p ↔ r.Keeps v.db p := by
  have hsource : r.source.all (fun s => decide (p.details.source = some s)) ↔
      ∀ source ∈ r.source, p.details.source = some source := by simp [Option.all_eq_true]
  have htype : (r.types.isEmpty || (v.db.typeOf? p).any fun t =>
        r.types.any (sameName · t.details.dataType.typeName)) ↔
      (r.types ≠ [] → ∃ t, v.db.HasType p t ∧ ∃ name ∈ r.types,
        name.toList.map Char.toLower = t.details.dataType.typeName.toList.map Char.toLower) := by
    rw [Bool.or_eq_true, List.isEmpty_iff, or_iff_not_imp_left]
    simp [Option.any_eq_true, h.typeOf?_eq_some_iff, sameName]
  rw [passes, Bool.and_eq_true, hsource, htype]
  exact ⟨fun ⟨hs, ht⟩ => ⟨hs, ht⟩, fun ⟨hs, ht⟩ => ⟨hs, ht⟩⟩

lemma isListing_parameterCandidates {c : CatalogDefinition} (h : v.db.Holds c)
    (r : ParameterRequest) :
    IsListing (v.IsCandidate r.list (r.Keeps v.db))
      (v.candidates r.list .withCandidates (v.passes r)).items :=
  isListing_candidates h _ (passes_iff h r)

/-- The members that the matcher finds in a parameter, by their places. -/
def foundPlaces (v : View) (m : Matcher) (p : Parameter) : List MatchPlace :=
  match v.db.typeOf? p with
  | some t => (m.placesIn t.details.dataType).map fun place => ⟨p, some place⟩
  | none => []

lemma map_shown_foundPlaces (m : Matcher) (p : Parameter) :
    (v.foundPlaces m p).map MatchPlace.shown = v.foundMembers m p := by
  rw [foundPlaces, foundMembers]
  cases v.db.typeOf? p with
  | none => rfl
  | some t =>
    simp only [Matcher.membersOf_eq, List.map_map]
    rfl

/-- Without a search for members the parameters that the query finds are all that is listed. -/
lemma exists_isListing_foundParameters {c : CatalogDefinition} (h : v.db.Holds c)
    {r : ParameterRequest} (hs : r.searchMembers = false) :
    ∃ listed, IsListing (v.IsListed r.list (r.Keeps v.db)) listed ∧
      (v.foundParameters r).items = listed.map (⟨·, none⟩) :=
  ⟨_, isListing_filter_inHead (isListing_parameterCandidates h r), by simp [foundParameters, hs]⟩

lemma mem_foundPlaces {c : CatalogDefinition} (h : v.db.Holds c) {query : String} {p : Parameter}
    {m : MatchPlace} : m ∈ v.foundPlaces (.ofQuery query) p ↔ ∃ t place, m = ⟨p, some place⟩ ∧
      v.db.HasType p t ∧ t.details.dataType.HasMember place ∧
      Query.FindsMember query place.name place.path := by
  simp only [← h.typeOf?_eq_some_iff, ← Matcher.inMember_ofQuery, ← Matcher.mem_placesIn]
  rw [foundPlaces]
  cases v.db.typeOf? p with
  | none => simp
  | some t => simp [eq_comm, and_comm]

lemma nodup_foundPlaces (m : Matcher) (p : Parameter) : (v.foundPlaces m p).Nodup := by
  rw [foundPlaces]
  split
  · next t _ =>
    refine (m.nodup_placesIn t.details.dataType).map fun a b hab => ?_
    exact Option.some.inj (congrArg MatchPlace.member hab)
  · exact List.nodup_nil

lemma parameter_of_mem_foundPlaces {m : Matcher} {p : Parameter} {place : MatchPlace}
    (h : place ∈ v.foundPlaces m p) : place.parameter = p ∧ place.member ≠ none := by
  rw [foundPlaces] at h
  split at h
  · obtain ⟨_, -, rfl⟩ := List.mem_map.1 h
    exact ⟨rfl, Option.some_ne_none _⟩
  · exact absurd h List.not_mem_nil

lemma AreMatches.of_perm {r : ParameterRequest} {found items : List ParameterMatch}
    (h : v.AreMatches r found) (hp : items.Perm found) : v.AreMatches r items := by
  obtain ⟨places, hnodup, hmem, hfound⟩ := h
  exact ⟨places, hnodup, hmem, hp.trans hfound⟩

lemma AreMatches.perm {r : ParameterRequest} {found items : List ParameterMatch}
    (h : v.AreMatches r found) (h' : v.AreMatches r items) : found.Perm items := by
  obtain ⟨places, hnodup, hmem, hfound⟩ := h
  obtain ⟨places', hnodup', hmem', hitems⟩ := h'
  have hplaces : places.Perm places' :=
    (List.perm_ext_iff_of_nodup hnodup hnodup').2 fun m => (hmem m).trans (hmem' m).symm
  exact hfound.trans ((hplaces.map _).trans hitems.symm)

lemma AreMatches.mem_iff {r : ParameterRequest} {found : List ParameterMatch}
    (h : v.AreMatches r found) {m : ParameterMatch} :
    m ∈ found ↔ ∃ place, v.IsMatch r place ∧ place.shown = m := by
  obtain ⟨places, -, hmem, hfound⟩ := h
  simp only [hfound.mem_iff, List.mem_map, hmem]

theorem areMatches_foundParameters {c : CatalogDefinition} (h : v.db.Holds c)
    (r : ParameterRequest) : v.AreMatches r (v.foundParameters r).items := by
  have hc := isListing_parameterCandidates h r
  have hl := isListing_filter_inHead hc
  generalize hcandidates :
    (v.candidates r.list .withCandidates (v.passes r)).items = candidates at hc hl
  generalize hlisted : candidates.filter (fun p => r.list.matcher.inHead p.head) = listed at hl
  refine ⟨listed.map (⟨·, none⟩) ++
    if r.searchMembers then candidates.flatMap (v.foundPlaces r.list.matcher) else [], ?_, ?_, ?_⟩
  · have hwhole : (listed.map fun p => (⟨p, none⟩ : MatchPlace)).Nodup :=
      hl.nodup.map fun a b hab => congrArg MatchPlace.parameter hab
    split
    · refine List.nodup_append'.2 ⟨hwhole, List.nodup_flatMap.2 ⟨?_, ?_⟩, ?_⟩
      · exact fun p _ => nodup_foundPlaces _ p
      · refine hc.nodup.imp fun {p q} hpq place hp hq => hpq ?_
        exact (parameter_of_mem_foundPlaces hp).1.symm.trans (parameter_of_mem_foundPlaces hq).1
      · intro place hw hm
        obtain ⟨_, -, rfl⟩ := List.mem_map.1 hw
        obtain ⟨p, -, hp⟩ := List.mem_flatMap.1 hm
        exact (parameter_of_mem_foundPlaces hp).2 rfl
    · rwa [List.append_nil]
  · intro m
    rw [List.mem_append, List.mem_map]
    constructor
    · rintro (⟨p, hp, rfl⟩ | hm)
      · exact .whole ((hl.mem p).1 hp)
      · split at hm
        · next hs =>
          obtain ⟨p, hp, hm⟩ := List.mem_flatMap.1 hm
          obtain ⟨t, place, rfl, ht, hplace, hf⟩ := (mem_foundPlaces h).1 hm
          exact .member hs ((hc.mem p).1 hp) ht hplace hf
        · exact absurd hm List.not_mem_nil
    · rintro (hp | ⟨hs, hp, ht, hplace, hf⟩)
      · exact .inl ⟨_, (hl.mem _).2 hp, rfl⟩
      · right
        rw [if_pos hs]
        exact List.mem_flatMap.2
          ⟨_, (hc.mem _).2 hp, (mem_foundPlaces h).2 ⟨_, _, rfl, ht, hplace, hf⟩⟩
  · refine .of_eq ?_
    rw [foundParameters, hcandidates, hlisted, List.map_append, List.map_map, apply_ite (List.map _),
      List.map_flatMap]
    simp only [map_shown_foundPlaces, List.map_nil]
    rfl

end View

/-- The one parameter of the catalog has a member `b` inside its member `a`, and a member `a.b`. -/
def dottedCatalog : CatalogDefinition where
  name := "dotted"
  version := none
  systems := [{
    head := ⟨"S", none, none, []⟩
    version := none
    parameterTypes := [⟨⟨"T", none, none, []⟩,
      ⟨none, .aggregate [⟨"a", none, .aggregate [⟨"b", none, .boolean⟩]⟩,
        ⟨"a.b", none, .boolean⟩]⟩⟩]
    parameters := [⟨⟨"P", none, none, []⟩, ⟨some "T", none⟩⟩]
    containers := []
    commands := []
    algorithms := []
    systems := [] }]

def dottedSearch : ParameterRequest := ⟨⟨none, some "b", .first⟩, [], none, true⟩

def dottedView (db : Database) : View := ⟨db, ⟨"reader", true, fun _ _ => false⟩, 100⟩

lemma exists_build_dottedCatalog : ∃ db, Database.build dottedCatalog = .ok db := by
  have hok : (Database.build dottedCatalog).isOk := by decide +kernel
  cases h : Database.build dottedCatalog with
  | error e => simp [h, Except.isOk, Except.toBool] at hok
  | ok db => exact ⟨db, rfl⟩

end MissionCatalog
