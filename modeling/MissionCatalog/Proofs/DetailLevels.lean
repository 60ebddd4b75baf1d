import MissionCatalog.Proofs.Projection

/-!
# Levels of detail

Each level of detail shows what the level before it shows, and may add to it. The projections are made
of groups of fields: from one level to the next a group stays as it is or is added whole, and only the
type of a parameter is itself shown with more detail. No projection has a key twice.
-/
namespace MissionCatalog

namespace Json

/-- Both are objects, and what the first has under a key is all that the second has there, up to
related values. -/
def Within (related : String → Json → Json → Prop) (j k : Json) : Prop :=
  ∃ fields others, j = .object fields ∧ k = .object others ∧
    ∀ key, ∀ v ∈ valuesOf fields key, ∃ w, valuesOf others key = [w] ∧ related key v w

/-- Every key of the first is in the second, with the same value. -/
def IsPartOf (j k : Json) : Prop := j.Within (fun _ v w => v = w) k

/-- What may stand under the key in place of the first value: the same value or, for a type, one that
has more keys. -/
def Refines (key : String) (v w : Json) : Prop := v = w ∨ key = "type" ∧ v.IsPartOf w

@[simp] lemma refines_refl (key : String) (v : Json) : Refines key v v := .inl rfl

/-- Every key of the first is in the second, with the same value, but a type may have keys added. -/
def ContainedIn (j k : Json) : Prop := j.Within Refines k

/-- The keys of the second fields are some of the names, in their order, and the first fields are among
the second ones, up to related values. -/
structure Grow (related : String → Json → Json → Prop) (names : List String)
    (fs gs : Fields) : Prop where
  named : (gs.map (·.1)).Sublist names
  kept : ∀ key v, (key, v) ∈ fs → ∃ w, (key, w) ∈ gs ∧ related key v w

section Grow

variable {related : String → Json → Json → Prop} {names names' : List String}
  {fs gs fs' gs' : Fields}

lemma mem_valuesOf {key : String} {v : Json} : v ∈ valuesOf fs key ↔ (key, v) ∈ fs := by
  simp [valuesOf]

/-- Names that are all different make the second fields a record. -/
lemma Grow.within (h : Grow related names fs gs) (hnames : names.Nodup) :
    (object fs).Within related (.object gs) := by
  have hdistinct : Fields.distinct gs := decide_eq_true (hnames.sublist h.named)
  refine ⟨fs, gs, rfl, rfl, ?_⟩
  intro key v hv
  obtain ⟨w, hw, hrelated⟩ := h.kept key v (mem_valuesOf.1 hv)
  refine ⟨w, ?_, hrelated⟩
  have hmem : w ∈ valuesOf gs key := mem_valuesOf.2 hw
  have hlength := distinct_iff.1 hdistinct key
  obtain ⟨u, hu⟩ := List.length_eq_one_iff.1 (hlength.antisymm (List.length_pos_of_mem hmem))
  rw [hu, List.mem_singleton] at hmem
  rw [hu, hmem]

lemma Within.of_subset {j : Json} (h : (object fs).Within related j) (hsub : gs ⊆ fs) :
    (object gs).Within related j := by
  obtain ⟨_, others, ⟨⟩, rfl, h⟩ := h
  refine ⟨gs, others, rfl, rfl, ?_⟩
  intro key v hv
  exact h key v (mem_valuesOf.2 (hsub (mem_valuesOf.1 hv)))

lemma Grow.append (h : Grow related names fs gs) (h' : Grow related names' fs' gs') :
    Grow related (names ++ names') (fs ++ fs') (gs ++ gs') where
  named := by
    rw [List.map_append]
    exact h.named.append h'.named
  kept := by
    intro key v hv
    rcases List.mem_append.1 hv with hv | hv
    · obtain ⟨w, hw, hrelated⟩ := h.kept key v hv
      exact ⟨w, List.mem_append_left _ hw, hrelated⟩
    · obtain ⟨w, hw, hrelated⟩ := h'.kept key v hv
      exact ⟨w, List.mem_append_right _ hw, hrelated⟩

lemma Grow.added (h : Grow related names fs gs) : Grow related names [] gs where
  named := h.named
  kept := by simp

lemma grow_nil : Grow related names [] [] := ⟨List.nil_sublist _, by simp⟩

lemma grow_one {key : String} {v w : Json} (h : related key v w) :
    Grow related [key] [(key, v)] [(key, w)] where
  named := List.Sublist.refl _
  kept := by
    intro key' v' hmem
    obtain ⟨rfl, rfl⟩ := Prod.mk.inj (List.mem_singleton.1 hmem)
    exact ⟨w, List.mem_singleton_self _, h⟩

lemma grow_field? {α : Type} (key : String) (value : Option α) {f g : α → Json}
    (h : ∀ a ∈ value, related key (f a) (g a)) :
    Grow related [key] (field? key (value.map f)) (field? key (value.map g)) := by
  cases value with
  | none => exact grow_nil
  | some a => exact grow_one (h a rfl)

lemma grow_listField (hrefl : ∀ key v, related key v v) (key : String) (items : List Json) :
    Grow related [key] (listField key items) (listField key items) := by
  unfold listField
  split
  · exact grow_nil
  · exact grow_one (hrefl key _)

lemma grow_whenFull {d d' : Detail} (hd : d.isFull → d'.isFull) (h : Grow related names fs fs) :
    Grow related names (d.whenFull fs) (d'.whenFull fs) := by
  unfold Detail.whenFull
  by_cases hfull : d.isFull
  · rw [if_pos hfull, if_pos (hd hfull)]
    exact h
  · rw [if_neg hfull]
    split
    · exact h.added
    · exact grow_nil

end Grow

end Json

open Json

variable {related : String → Json → Json → Prop} {d d' : Detail} {k : MemberKind}

section Projections

variable (hrefl : ∀ key v, related key v v) (hd : d.isFull → d'.isFull)
include hrefl hd

lemma Head.grow_shown (h : Head) :
    Grow related ["alias", "shortDescription", "longDescription"] (h.shown d) (h.shown d') := by
  have hlong := grow_field? "longDescription" h.longDescription
    fun s _ => hrefl _ (.string s)
  exact ((grow_listField hrefl _ _).append (grow_field? _ _ fun _ _ => hrefl _ _)).append
    (grow_whenFull hd hlong)

lemma Entity.grow_shown (e : Entity k) :
    Grow related ["qualifiedName", "name", "alias", "shortDescription", "longDescription"]
      (e.shown d) (e.shown d') :=
  ((grow_one (hrefl _ _)).append (grow_one (hrefl _ _))).append (e.head.grow_shown hrefl hd)

lemma ParameterType.within (t : ParameterType) :
    (t.project d).Within related (t.project d') := by
  have hunits := grow_field? "units" t.details.units
    fun s _ => hrefl _ (.string s)
  have hdata := grow_whenFull hd (grow_one (hrefl "dataType" t.details.dataType.toJson))
  exact ((((t.grow_shown hrefl hd).append (grow_one (hrefl _ _))).append hunits).append
    hdata).within (by decide)

lemma grow_usedBy (containers : List Container) :
    Grow related ["usedBy"] (d.whenFull (usedBy containers)) (d'.whenFull (usedBy containers)) :=
  grow_whenFull hd (grow_one (hrefl _ _))

lemma Container.within (db : Database) (c : Container) :
    (c.project db d).Within related (c.project db d') := by
  have hbase := grow_field? "baseContainer" c.details.base
    fun name _ => hrefl _ (Link.ofName name).toJson
  have hsize := grow_field? "sizeInBits" c.details.sizeInBits
    fun n _ => hrefl _ (.ofNat n.toNat)
  have hentries := grow_whenFull hd
    (grow_listField hrefl "entries" (c.details.entries.map ContainerEntry.project))
  exact ((((((c.grow_shown hrefl hd).append hbase).append (grow_one (hrefl _ _))).append
    hsize).append hentries).append (grow_usedBy hrefl hd _)).within (by decide)

lemma Command.within (c : Command) : (c.project d).Within related (c.project d') := by
  have hbase := grow_field? "baseCommand" c.details.base
    fun name _ => hrefl _ (Link.ofName name).toJson
  have hsignificance := grow_field? "significance" c.details.significance
    fun s _ => hrefl _ (.string s)
  have harguments := grow_whenFull hd
    (grow_listField hrefl "argument" (c.details.arguments.map Argument.toJson))
  exact (((((c.grow_shown hrefl hd).append hbase).append (grow_one (hrefl _ _))).append
    hsignificance).append harguments).within (by decide)

lemma Algorithm.within (a : Algorithm) : (a.project d).Within related (a.project d') := by
  have hlanguage := grow_field? "language" a.details.language
    fun s _ => hrefl _ (.string s)
  have htext := grow_whenFull hd
    (grow_field? "text" a.details.text fun s _ => hrefl _ (.string s))
  have hlinks := fun (key : String) (names : List String) => grow_whenFull hd
    (grow_listField hrefl key (names.map fun name => (Link.ofName name).toJson))
  exact ((((((a.grow_shown hrefl hd).append (grow_one (hrefl _ _))).append hlanguage).append
    htext).append (hlinks _ _)).append (hlinks _ _)).within (by decide)

lemma SpaceSystem.within (s : SpaceSystem) : (s.project d).Within related (s.project d') := by
  have hversion := grow_field? "version" s.version
    fun v _ => hrefl _ (.string v)
  have hnames : Grow related ["qualifiedName", "name"]
      [("qualifiedName", .string s.qualifiedName), ("name", .string s.head.name)] _ :=
    (grow_one (hrefl _ _)).append (grow_one (hrefl _ _))
  exact (((hnames.append (s.head.grow_shown hrefl hd)).append hversion).append
    (grow_listField hrefl _ _)).within (by decide)

end Projections

namespace Database

variable {db : Database} {c : CatalogDefinition}

/-- Above the level of links a parameter is shown with its type, which grows like any projection. -/
lemma containedIn_of_ne_link (p : Parameter) (path : Option MemberPath) (hlink : d ≠ .link)
    (hlink' : d' ≠ .link) (hd : d.isFull → d'.isFull) :
    (Parameter.project db p path d).ContainedIn (Parameter.project db p path d') := by
  have htype : Grow Refines ["type"]
      (field? "type" ((db.typeOf? p).map fun t => ParameterType.project t d))
      (field? "type" ((db.typeOf? p).map fun t => ParameterType.project t d')) :=
    grow_field? _ _ fun t _ => .inr ⟨rfl, t.within (fun _ _ => rfl) hd⟩
  have hsource := grow_field? "dataSource" p.details.source
    fun source _ => refines_refl _ source.toJson
  have hpath := grow_field? "path" path
    fun path _ => refines_refl _ (.string path.text)
  unfold Parameter.project
  rw [if_neg hlink, if_neg hlink']
  exact (((((p.grow_shown refines_refl hd).append htype).append hsource).append hpath).append
    (grow_usedBy refines_refl hd _)).within (by decide)

/-- At the level of links a parameter has the name that its qualified name ends with. -/
lemma containedIn_of_link {p : Parameter} (path : Option MemberPath) (hd : d ≠ .link)
    (hname : Link.ofName p.qualifiedName = ⟨p.qualifiedName, p.head.name⟩) :
    (Parameter.project db p path .link).ContainedIn (Parameter.project db p path d) := by
  have hself : (Parameter.project db p path d).ContainedIn (Parameter.project db p path d) :=
    containedIn_of_ne_link p path hd hd id
  -- A link has the first two fields of the projection, and the path.
  have hfields : (Link.mk p.qualifiedName p.head.name).fields ⊆ p.shown d := by
    intro f hf
    obtain rfl | hf := List.mem_cons.1 hf
    · exact List.mem_cons_self
    · obtain rfl := List.mem_singleton.1 hf
      exact List.mem_cons_of_mem _ List.mem_cons_self
  conv at hself => lhs; rw [Parameter.project, if_neg hd]
  rw [Parameter.project, if_pos rfl, hname]
  refine hself.of_subset ?_
  intro f hf
  rcases List.mem_append.1 hf with hf | hf
  · simp [hfields hf]
  · simp [hf]

lemma projection_containedIn {e : Entity k} (path : Option MemberPath)
    (hname : Link.ofName e.qualifiedName = ⟨e.qualifiedName, e.head.name⟩)
    (hlink' : d' ≠ .link) (hd : d.isFull → d'.isFull) :
    (db.projection path d k e).ContainedIn (db.projection path d' k e) := by
  cases k with
  | parameterType => exact ParameterType.within refines_refl hd e
  | parameter =>
    by_cases hlink : d = .link
    · subst hlink
      exact containedIn_of_link path hlink' hname
    · exact containedIn_of_ne_link e path hlink hlink' hd
  | container => exact Container.within refines_refl hd db e
  | command => exact Command.within refines_refl hd e
  | algorithm => exact Algorithm.within refines_refl hd e

/-- Details are only added. What is shown of a member as a link is contained in its summary, and that
in its full projection, whatever the path; what is shown of a space system likewise. Contained means
that each key is there with the same value, and the type of a parameter with the same keys or more. The
name in a link, which is read off the qualified name, is the entity's own. -/
theorem details_are_added (hb : build c = .ok db) :
    (∀ k, ∀ e ∈ (db.table k).sorted, ∀ path,
      (db.projection path .link k e).ContainedIn (db.projection path .summary k e) ∧
      (db.projection path .summary k e).ContainedIn (db.projection path .full k e) ∧
      Link.ofName e.qualifiedName = ⟨e.qualifiedName, e.head.name⟩) ∧
    ∀ s ∈ db.systems.sorted,
      (s.project .link).ContainedIn (s.project .summary) ∧
      (s.project .summary).ContainedIn (s.project .full) ∧
      Link.ofName s.qualifiedName = ⟨s.qualifiedName, s.head.name⟩ := by
  have h := holds_of_build hb
  refine ⟨?_, ?_⟩
  · intro k e he path
    have hname := ofName_of_mem h he
    exact ⟨projection_containedIn path hname (by decide) (by decide),
      projection_containedIn path hname (by decide) (by decide), hname⟩
  · intro s hs
    exact ⟨s.within refines_refl (by decide), s.within refines_refl (by decide),
      ofName_of_mem_systems h hs⟩

theorem details_are_added_linked : ∃ db, build linkedCatalog = .ok db ∧
    ∃ p ∈ (db.table .parameter).sorted, p.qualifiedName = "/S/P" ∧
      (Parameter.project db p none .link).ContainedIn (Parameter.project db p none .summary) ∧
      (Parameter.project db p none .summary).ContainedIn (Parameter.project db p none .full) ∧
      Link.ofName "/S/P" = ⟨"/S/P", p.head.name⟩ := by
  obtain ⟨db, hb⟩ := CatalogDefinition.exists_build_iff_passes.2
    (show linkedCatalog.Passes by decide +kernel)
  have hparameter : ∃ p ∈ (db.table .parameter).sorted, p.qualifiedName = "/S/P" := by
    rw [(holds_of_build hb).table_eq]
    decide +kernel
  obtain ⟨p, hp, hname⟩ := hparameter
  obtain ⟨hsummary, hfull, hlink⟩ := (details_are_added hb).1 .parameter p hp none
  refine ⟨db, hb, p, hp, hname, hsummary, hfull, ?_⟩
  rw [← hname]
  exact hlink

end Database

end MissionCatalog
