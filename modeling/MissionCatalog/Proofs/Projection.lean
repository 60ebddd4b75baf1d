import MissionCatalog.Projection
import MissionCatalog.Proofs.Database.Ancestry
import MissionCatalog.Proofs.Json.Record

/-!
# Links in projections

`Json.reach` reads a projection as its readers do, key by key. `Database.linkPlaces` lists the places
where the full projection of a member has links, and to which entities. Each of these links leads to
an entity of the database and bears its name.
-/
namespace MissionCatalog

namespace Json

/-- The items of a list. Any other value stands for itself. -/
def spread : Json → List Json
  | .array items => items
  | j => [j]

def spreadOf (fields : Fields) (key : String) : List Json := (valuesOf fields key).flatMap spread

/-- What is reached by following the keys, through all items of lists. -/
def reach (keys : List String) (j : Json) : List Json :=
  match keys, j with
  | [], j => [j]
  | key :: keys, .object fields => (spreadOf fields key).flatMap (reach keys)
  | _ :: _, _ => []

@[simp] lemma reach_nil : reach [] = fun j => [j] := by
  funext j
  rw [reach]

@[simp] lemma reach_object (key : String) (keys : List String) (fields : Fields) :
    reach (key :: keys) (.object fields) = (spreadOf fields key).flatMap (reach keys) := by
  rw [reach]

@[simp] lemma spreadOf_nil (key : String) : spreadOf [] key = [] := rfl

@[simp] lemma spreadOf_cons (name : String) (j : Json) (fields : Fields) (key : String) :
    spreadOf ((name, j) :: fields) key =
      (if name = key then j.spread else []) ++ spreadOf fields key := by
  by_cases h : name = key <;> simp [spreadOf, valuesOf, h]

@[simp] lemma spreadOf_append (fields others : Fields) (key : String) :
    spreadOf (fields ++ others) key = spreadOf fields key ++ spreadOf others key := by
  simp [spreadOf, valuesOf]

@[simp] lemma spreadOf_field? (name : String) (value : Option Json) (key : String) :
    spreadOf (field? name value) key =
      if name = key then value.toList.flatMap spread else [] := by
  cases value <;> simp [field?]

@[simp] lemma spreadOf_listField (name : String) (items : List Json) (key : String) :
    spreadOf (listField name items) key = if name = key then items else [] := by
  cases items <;> simp [listField, spread]

end Json

variable {α : Type} [Declared α]

/-- The value is a link to the entity of that name: the qualified name and the entity's own. -/
def Table.IsLink (t : Table α) (name : String) (j : Json) : Prop :=
  ∃ e ∈ t.sorted, Declared.qualifiedName e = name ∧
    j = .object [("qualifiedName", .string name), ("name", .string (Declared.head e).name)]

/-- A place for links in a projection: the keys that lead there, the kind of entity that is linked,
and the names of those that are. -/
structure LinkPlace where
  keys : List String
  target : Kind
  names : List String

def ContainerEntry.key : ContainerEntry → String
  | parameter _ => "parameter"
  | container _ => "container"

/-- The names in the entries that are shown under the key. -/
def ContainerEntry.namesUnder (key : String) (entries : List ContainerEntry) : List String :=
  (entries.filter fun entry => entry.key = key).map (·.reference.name)

namespace Database

def IsLink (db : Database) (target : Kind) (name : String) (j : Json) : Prop :=
  match target with
  | .spaceSystem => db.systems.IsLink name j
  | .member k => (db.table k).IsLink name j

/-- A member with as many details as asked for. The path is that of the member of a parameter, if one
is shown. -/
def projection (db : Database) (path : Option MemberPath) (d : Detail) :
    (k : MemberKind) → Entity k → Json
  | .parameterType, t => ParameterType.project t d
  | .parameter, p => Parameter.project db p path d
  | .container, c => Container.project db c d
  | .command, c => Command.project c d
  | .algorithm, a => Algorithm.project a d

def usersOf (db : Database) (entry : ContainerEntry) : LinkPlace :=
  ⟨["usedBy", "containers"], .member .container,
    (db.containersWith entry).map Entity.qualifiedName⟩

def linkPlaces (db : Database) : (k : MemberKind) → Entity k → List LinkPlace
  | .parameterType, _ => []
  | .parameter, p => [db.usersOf (.parameter p.qualifiedName)]
  | .container, c =>
    [⟨["baseContainer"], .member .container, c.details.base.toList⟩,
      ⟨["entries", "parameter"], .member .parameter,
        ContainerEntry.namesUnder "parameter" c.details.entries⟩,
      ⟨["entries", "container"], .member .container,
        ContainerEntry.namesUnder "container" c.details.entries⟩,
      db.usersOf (.container c.qualifiedName)]
  | .command, c => [⟨["baseCommand"], .member .command, c.details.base.toList⟩]
  | .algorithm, a =>
    [⟨["inputParameter"], .member .parameter, a.details.inputs⟩,
      ⟨["outputParameter"], .member .parameter, a.details.outputs⟩]

variable {db : Database} {c : CatalogDefinition} {k : MemberKind}

lemma spreadOf_shown {e : Entity k} {d : Detail} {key : String}
    (h : key ∉ ["qualifiedName", "name", "alias", "shortDescription", "longDescription"]) :
    Json.spreadOf (e.shown d) key = [] := by
  simp only [List.mem_cons, List.not_mem_nil, or_false, not_or] at h
  obtain ⟨hq, hn, ha, hs, hl⟩ := h
  unfold Entity.shown Head.shown Detail.whenFull
  split <;> simp [Ne.symm hq, Ne.symm hn, Ne.symm ha, Ne.symm hs, Ne.symm hl]

@[simp] lemma whenFull_full (fields : Json.Fields) : Detail.full.whenFull fields = fields := rfl

@[simp] lemma spread_link (l : Link) : l.toJson.spread = [l.toJson] := rfl

lemma flatMap_spread_links (name? : Option String) :
    (name?.map fun name => (Link.ofName name).toJson).toList.flatMap Json.spread =
      name?.toList.map fun name => (Link.ofName name).toJson := by
  cases name? <;> simp

lemma reach_usedBy (containers : List Container) :
    (Json.spreadOf (usedBy containers) "usedBy").flatMap (Json.reach ["containers"]) =
      (containers.map Entity.qualifiedName).map fun name => (Link.ofName name).toJson := by
  simp [usedBy, Json.spread]

lemma spreadOf_usedBy (containers : List Container) {key : String} (h : key ≠ "usedBy") :
    Json.spreadOf (usedBy containers) key = [] := by
  simp [usedBy, Ne.symm h]

lemma reach_entries (key : String) (entries : List ContainerEntry) :
    (entries.map ContainerEntry.project).flatMap (Json.reach [key]) =
      (ContainerEntry.namesUnder key entries).map fun name => (Link.ofName name).toJson := by
  unfold ContainerEntry.namesUnder
  induction entries with
  | nil => rfl
  | cons entry entries ih =>
    rw [List.map_cons, List.flatMap_cons, ih]
    cases entry with
    | parameter name =>
      by_cases h : "parameter" = key <;>
        simp [ContainerEntry.project, ContainerEntry.key, ContainerEntry.reference, h]
    | container name =>
      by_cases h : "container" = key <;>
        simp [ContainerEntry.project, ContainerEntry.key, ContainerEntry.reference, h]

lemma reach_linkPlaces {e : Entity k} {path : Option MemberPath} {place : LinkPlace}
    (h : place ∈ db.linkPlaces k e) : (db.projection path .full k e).reach place.keys =
      place.names.map fun name => (Link.ofName name).toJson := by
  cases k with
  | parameterType => simp [linkPlaces] at h
  | parameter =>
    obtain rfl := List.mem_singleton.1 h
    simp (disch := decide) [projection, Parameter.project, spreadOf_shown, usersOf,
      reach_usedBy]
  | container =>
    simp only [linkPlaces, List.mem_cons, List.not_mem_nil, or_false] at h
    obtain rfl | rfl | rfl | rfl := h
    · simp (disch := decide) [projection, Container.project, spreadOf_shown, spreadOf_usedBy,
        flatMap_spread_links]
    · simp (disch := decide) [projection, Container.project, spreadOf_shown, spreadOf_usedBy,
        reach_entries]
    · simp (disch := decide) [projection, Container.project, spreadOf_shown, spreadOf_usedBy,
        reach_entries]
    · simp (disch := decide) [projection, Container.project, spreadOf_shown, usersOf,
        reach_usedBy]
  | command =>
    obtain rfl := List.mem_singleton.1 h
    simp (disch := decide) [projection, Command.project, spreadOf_shown, flatMap_spread_links]
  | algorithm =>
    simp only [linkPlaces, List.mem_cons, List.not_mem_nil, or_false] at h
    obtain rfl | rfl := h
    · simp (disch := decide) [projection, Algorithm.project, spreadOf_shown]
    · simp (disch := decide) [projection, Algorithm.project, spreadOf_shown]

lemma exists_of_reference (hb : build c = .ok db) {e : Entity k} (he : e ∈ (db.table k).sorted)
    {r : Reference} (hr : r ∈ e.references) :
    ∃ t ∈ (db.table r.role.target).sorted, t.qualifiedName = r.name := by
  obtain ⟨-, -, hdangling, -⟩ := build_eq_ok.1 hb
  exact ((holds_of_build hb).consistent _).contains_iff.1
    (dangling?_eq_none_iff.1 hdangling k e he r hr)

/-- The last segment of the name of a member is the name that it was given. -/
lemma ofName_of_mem (h : db.Holds c) {t : Entity k} (ht : t ∈ (db.table k).sorted) :
    Link.ofName t.qualifiedName = ⟨t.qualifiedName, t.head.name⟩ := by
  have hlast : Name.lastSegment t.qualifiedName = t.head.name :=
    Name.lastSegment_qualify (h.isValid_of_mem_sorted ht) t.owner
  rw [Link.ofName, hlast]

/-- The root has no name, and that is the last segment of it. -/
lemma ofName_of_mem_systems (h : db.Holds c) {s : SpaceSystem} (hs : s ∈ db.systems.sorted) :
    Link.ofName s.qualifiedName = ⟨s.qualifiedName, s.head.name⟩ := by
  obtain rfl | ⟨parent, d, hp, rfl⟩ := h.mem_systems.1 hs
  · rfl
  · have hlast : Name.lastSegment (d.node parent).qualifiedName = d.head.name :=
      Name.lastSegment_qualify (h.isValid_of_places hp) parent
    rw [Link.ofName, hlast]
    rfl

lemma isLink_of_mem (h : db.Holds c) {t : Entity k} (ht : t ∈ (db.table k).sorted) :
    db.IsLink k t.qualifiedName (Link.ofName t.qualifiedName).toJson := by
  refine ⟨t, ht, rfl, ?_⟩
  rw [ofName_of_mem h ht]
  rfl

lemma isLink_of_reference (hb : build c = .ok db) {e : Entity k} (he : e ∈ (db.table k).sorted)
    {r : Reference} (hr : r ∈ e.references) :
    db.IsLink r.role.target r.name (Link.ofName r.name).toJson := by
  obtain ⟨t, ht, hname⟩ := exists_of_reference hb he hr
  rw [← hname]
  exact isLink_of_mem (holds_of_build hb) ht

lemma isLink_of_user (h : db.Holds c) {entry : ContainerEntry} {name : String}
    (hname : name ∈ (db.usersOf entry).names) :
    db.IsLink (.member .container) name (Link.ofName name).toJson := by
  obtain ⟨user, huser, rfl⟩ := List.mem_map.1 hname
  obtain ⟨name, -, hget⟩ := List.mem_filterMap.1 huser
  exact isLink_of_mem h ((h.consistent .container).get?_eq_some_iff.1 hget).1

/-- The entities in the entries of a container are among its references. -/
lemma exists_entry_of_namesUnder {e : Container} {key name : String}
    (h : name ∈ ContainerEntry.namesUnder key e.details.entries) :
    ∃ entry : ContainerEntry, entry.key = key ∧ entry.reference.name = name ∧
      entry.reference ∈ e.references := by
  obtain ⟨entry, hentry, rfl⟩ := List.mem_map.1 h
  obtain ⟨hmem, hkey⟩ := List.mem_filter.1 hentry
  refine ⟨entry, of_decide_eq_true hkey, rfl, ?_⟩
  exact List.mem_append_right _ (List.mem_map_of_mem hmem)

/-- What is linked is a reference of the member or a container that uses it. -/
lemma isLink_of_linkPlace (hb : build c = .ok db) {e : Entity k} (he : e ∈ (db.table k).sorted)
    {place : LinkPlace} (hplace : place ∈ db.linkPlaces k e) {name : String}
    (hname : name ∈ place.names) : db.IsLink place.target name (Link.ofName name).toJson := by
  have hreference := @isLink_of_reference _ _ _ hb e he
  cases k with
  | parameterType => simp [linkPlaces] at hplace
  | parameter =>
    obtain rfl := List.mem_singleton.1 hplace
    exact isLink_of_user (holds_of_build hb) hname
  | container =>
    simp only [linkPlaces, List.mem_cons, List.not_mem_nil, or_false] at hplace
    obtain rfl | rfl | rfl | rfl := hplace
    · have hmem := List.mem_map_of_mem (f := Reference.mk .baseContainer) hname
      exact hreference (List.mem_append_left _ hmem)
    · obtain ⟨entry, hkey, rfl, hmem⟩ := exists_entry_of_namesUnder hname
      cases entry with
      | parameter name => exact hreference hmem
      | container name => simp [ContainerEntry.key] at hkey
    · obtain ⟨entry, hkey, rfl, hmem⟩ := exists_entry_of_namesUnder hname
      cases entry with
      | parameter name => simp [ContainerEntry.key] at hkey
      | container name => exact hreference hmem
    · exact isLink_of_user (holds_of_build hb) hname
  | command =>
    obtain rfl := List.mem_singleton.1 hplace
    exact hreference (List.mem_map_of_mem (f := Reference.mk .baseCommand) hname)
  | algorithm =>
    simp only [linkPlaces, List.mem_cons, List.not_mem_nil, or_false] at hplace
    obtain rfl | rfl := hplace
    · have hmem := List.mem_append_left e.details.outputs hname
      exact hreference (List.mem_map_of_mem (f := Reference.mk .algorithmParameter) hmem)
    · have hmem := List.mem_append_right e.details.inputs hname
      exact hreference (List.mem_map_of_mem (f := Reference.mk .algorithmParameter) hmem)

lemma isLink_of_child (h : db.Holds c) {s : SpaceSystem} (hs : s ∈ db.systems.sorted) {name : String}
    (hname : name ∈ s.systems) : db.IsLink .spaceSystem name (Link.ofName name).toJson := by
  obtain ⟨t, ht, -, rfl⟩ := (h.mem_children_iff hs).1 hname
  refine ⟨t, ht, rfl, ?_⟩
  rw [ofName_of_mem_systems h ht]
  rfl

lemma reach_subSystem (s : SpaceSystem) : (s.project .full).reach ["subSystem"] =
    s.systems.mergeSort.map fun name => (Link.ofName name).toJson := by
  simp [SpaceSystem.project, Head.shown]

/-- The value shows the type of that name. -/
def ShowsType (db : Database) (detail : Detail) (name : String) (j : Json) : Prop :=
  ∃ t ∈ (db.table .parameterType).sorted, t.qualifiedName = name ∧ j = ParameterType.project t detail

lemma reach_type (p : Parameter) (path : Option MemberPath) {d : Detail} (h : d ≠ .link) :
    (Parameter.project db p path d).reach ["type"] =
      (db.typeOf? p).toList.map fun t => ParameterType.project t d := by
  have husers : ∀ containers, Json.spreadOf (d.whenFull (usedBy containers)) "type" = [] := by
    intro containers
    unfold Detail.whenFull
    split <;> simp [spreadOf_usedBy]
  have htype : ∀ t, (ParameterType.project t d).spread = [ParameterType.project t d] := fun _ => rfl
  cases hp : db.typeOf? p <;>
    simp (disch := decide) [Parameter.project, h, hp, spreadOf_shown, husers, htype]

lemma typeOf?_of_type (hb : build c = .ok db) {p : Parameter}
    (hp : p ∈ (db.table .parameter).sorted) {name : String} (hname : p.details.type = some name) :
    ∃ t ∈ (db.table .parameterType).sorted, t.qualifiedName = name ∧ db.typeOf? p = some t := by
  have hr : Reference.mk .type name ∈ p.references := by
    simp [Entity.references, MemberKind.references, hname]
  obtain ⟨t, ht, htname⟩ := exists_of_reference hb hp hr
  refine ⟨t, ht, htname, ?_⟩
  rw [typeOf?, hname, Option.bind_some]
  exact ((holds_of_build hb).consistent .parameterType).get?_eq_some_iff.2 ⟨ht, htname⟩

lemma showsType_of_mem (hb : build c = .ok db) {p : Parameter}
    (hp : p ∈ (db.table .parameter).sorted) (path : Option MemberPath) {d : Detail} (h : d ≠ .link) :
    List.Forall₂ (db.ShowsType d) p.details.type.toList
      ((Parameter.project db p path d).reach ["type"]) := by
  rw [reach_type p path h]
  cases hname : p.details.type with
  | none => simp [typeOf?, hname]
  | some name =>
    obtain ⟨t, ht, htname, htype⟩ := typeOf?_of_type hb hp hname
    rw [htype]
    exact .cons ⟨t, ht, htname, rfl⟩ .nil

/-- No link is dangling. At each place for links in the full projection of a member stand links to
the entities that it refers to, or to the containers that use it, in their order: each has the name of
an entity in the table of its kind, and the last segment of it is the entity's own name. So do the
links of a space system to its children. A parameter is shown with the type that its definition names,
read as from where it stands, and with none just if it names none. -/
theorem links_lead_to_entities (hb : build c = .ok db) :
    (∀ k, ∀ e ∈ (db.table k).sorted, ∀ path, ∀ place ∈ db.linkPlaces k e,
      List.Forall₂ (db.IsLink place.target) place.names
        ((db.projection path .full k e).reach place.keys)) ∧
    (∀ s ∈ db.systems.sorted, List.Forall₂ (db.IsLink .spaceSystem) s.systems.mergeSort
      ((s.project .full).reach ["subSystem"])) ∧
    ∀ p ∈ (db.table .parameter).sorted, ∃ parent d, c.Places parent d ∧ ∃ m ∈ d.members .parameter,
      p = Entity.ofDefinition (Name.qualify parent d.head.name) m ∧
      ∀ path detail, detail ≠ .link → List.Forall₂ (db.ShowsType detail)
        (m.details.type.map (Name.absolute p.owner)).toList
        ((Parameter.project db p path detail).reach ["type"]) := by
  have h := holds_of_build hb
  refine ⟨?_, ?_, ?_⟩
  · intro k e he path place hplace
    rw [reach_linkPlaces hplace, List.forall₂_map_right_iff, List.forall₂_same]
    intro name hname
    exact isLink_of_linkPlace hb he hplace hname
  · intro s hs
    rw [reach_subSystem, List.forall₂_map_right_iff, List.forall₂_same]
    intro name hname
    exact isLink_of_child h hs (List.mem_mergeSort.1 hname)
  · intro p hp
    obtain ⟨parent, d, hplaces, m, hm, rfl⟩ := h.mem_sorted.1 hp
    refine ⟨parent, d, hplaces, m, hm, rfl, ?_⟩
    intro path detail hdetail
    exact showsType_of_mem hb hp path hdetail

/-- The container `B` has entries for the parameter `P`, which has the type `T`, and for the container
`A`. -/
def linkedCatalog : CatalogDefinition where
  name := "linked"
  version := none
  systems := [{
    head := ⟨"S", none, none, []⟩
    version := none
    parameterTypes := [⟨⟨"T", none, none, []⟩, ⟨none, .boolean⟩⟩]
    parameters := [⟨⟨"P", none, none, []⟩, ⟨some "T", none⟩⟩]
    containers := [⟨⟨"A", none, none, []⟩, ⟨none, false, none, []⟩⟩,
      ⟨⟨"B", none, none, []⟩, ⟨none, false, none, [.parameter "/S/P", .container "A"]⟩⟩]
    commands := []
    algorithms := []
    systems := [] }]

theorem links_lead_to_entities_linked : ∃ db, build linkedCatalog = .ok db ∧
    (∃ e ∈ (db.table .container).sorted, e.qualifiedName = "/S/B" ∧
      ∃ j, (Container.project db e .full).reach ["entries", "container"] = [j] ∧
        (db.table .container).IsLink "/S/A" j) ∧
    ∃ p ∈ (db.table .parameter).sorted, p.qualifiedName = "/S/P" ∧
      ∃ j, (Parameter.project db p none .full).reach ["type"] = [j] ∧
        db.ShowsType .full "/S/T" j := by
  obtain ⟨db, hb⟩ := CatalogDefinition.exists_build_iff_passes.2
    (show linkedCatalog.Passes by decide +kernel)
  have ht := (holds_of_build hb).table_eq
  have hcontainer : ∃ e ∈ (db.table .container).sorted, e.qualifiedName = "/S/B" ∧
      ContainerEntry.namesUnder "container" e.details.entries = ["/S/A"] := by
    rw [ht]
    decide +kernel
  have hparameter : ∃ p ∈ (db.table .parameter).sorted, p.qualifiedName = "/S/P" ∧
      p.details.type = some "/S/T" := by
    rw [ht]
    decide +kernel
  obtain ⟨e, he, hname, hentries⟩ := hcontainer
  obtain ⟨p, hp, hpname, htype⟩ := hparameter
  obtain ⟨hmembers, -, htypes⟩ := links_lead_to_entities hb
  refine ⟨db, hb, ⟨e, he, hname, ?_⟩, p, hp, hpname, ?_⟩
  · have hlinks := hmembers .container e he none
      ⟨["entries", "container"], .member .container, ["/S/A"]⟩ (by simp [linkPlaces, hentries])
    obtain ⟨j, rest, hj, hrest, hreach⟩ := List.forall₂_cons_left_iff.1 hlinks
    obtain rfl := List.forall₂_nil_left_iff.1 hrest
    exact ⟨j, hreach, hj⟩
  · obtain ⟨parent, d, -, m, -, rfl, hshown⟩ := htypes p hp
    have hshown := hshown none .full (by decide)
    have hnames : m.details.type.map (Name.absolute (Name.qualify parent d.head.name)) =
        some "/S/T" := htype
    rw [Entity.ofDefinition, hnames] at hshown
    obtain ⟨j, rest, hj, hrest, hreach⟩ := List.forall₂_cons_left_iff.1 hshown
    obtain rfl := List.forall₂_nil_left_iff.1 hrest
    exact ⟨j, hreach, hj⟩

end Database

end MissionCatalog
