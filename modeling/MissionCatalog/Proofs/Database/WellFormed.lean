import MissionCatalog.Proofs.Database.Build
import MissionCatalog.Proofs.Name

/-!
# Well-formed catalogs

`WellFormed` says, without a word about tables or the order of the definitions, which catalogs describe
a database. In these the qualified names of all space systems are distinct, and so are those of all
members of a kind, because a qualified name is the path to the one place where it is declared.
-/
namespace MissionCatalog
open Name

/-- The entity claims the key in the space system `owner`: by its own name, in the namespace of the
owner's name or in `/` if it stands at the top, or as an alias. -/
def Head.Claims (h : Head) (owner : String) (key : Key) : Prop :=
  key.name = h.name ∧ key.space = (if owner = "" then "/" else owner) ∨
    ⟨key.name, some key.space⟩ ∈ h.aliases

/-- The details refer to a member of the kind `target` by a name, as it is written. -/
inductive Refers : {k : MemberKind} → k.Details → (target : MemberKind) → (name : String) → Prop
  | type {d : ParameterDetails} {name : String} (h : d.type = some name) :
      Refers (k := .parameter) d .parameterType name
  | baseContainer {d : ContainerDetails} {name : String} (h : d.base = some name) :
      Refers (k := .container) d .container name
  | parameterEntry {d : ContainerDetails} {name : String} (h : .parameter name ∈ d.entries) :
      Refers (k := .container) d .parameter name
  | containerEntry {d : ContainerDetails} {name : String} (h : .container name ∈ d.entries) :
      Refers (k := .container) d .container name
  | baseCommand {d : CommandDetails} {name : String} (h : d.base = some name) :
      Refers (k := .command) d .command name
  | input {d : AlgorithmDetails} {name : String} (h : name ∈ d.inputs) :
      Refers (k := .algorithm) d .parameter name
  | output {d : AlgorithmDetails} {name : String} (h : name ∈ d.outputs) :
      Refers (k := .algorithm) d .parameter name

namespace CatalogDefinition

/-- The catalog declares a member of the kind under the qualified name. -/
def Declares (c : CatalogDefinition) (k : MemberKind) (name : String) : Prop :=
  ∃ parent d, c.Places parent d ∧
    ∃ m ∈ d.members k, name = qualify (qualify parent d.head.name) m.head.name

/-- The entity of the kind with that qualified name claims the key. -/
inductive Claims (c : CatalogDefinition) : Kind → String → Key → Prop
  | system {parent : String} {d : SystemDefinition} {key : Key} (place : c.Places parent d)
      (claim : d.head.Claims parent key) : c.Claims .spaceSystem (qualify parent d.head.name) key
  | member {parent : String} {d : SystemDefinition} {k : MemberKind} {m : MemberDefinition k}
      {key : Key} (place : c.Places parent d) (mem : m ∈ d.members k)
      (claim : m.head.Claims (qualify parent d.head.name) key) :
      c.Claims k (qualify (qualify parent d.head.name) m.head.name) key

structure WellFormed (c : CatalogDefinition) : Prop where
  systemName : ∀ {parent d}, c.Places parent d → d.head.name ≠ "" ∧ '/' ∉ d.head.name.toList
  memberName : ∀ {parent d}, c.Places parent d → ∀ {k}, ∀ m ∈ d.members k,
    m.head.name ≠ "" ∧ '/' ∉ m.head.name.toList
  top : (c.systems.map (·.head.name)).Nodup
  systems : ∀ {parent d}, c.Places parent d → (d.systems.map (·.head.name)).Nodup
  members : ∀ {parent d}, c.Places parent d → ∀ k, ((d.members k).map (·.head.name)).Nodup
  /-- No two entities of a kind claim one key. -/
  keys : ∀ {kind a b key}, c.Claims kind a key → c.Claims kind b key → a = b
  /-- Every reference names a member of the right kind: as it stands if it begins with a slash, and
  otherwise in the space system in which it is made. -/
  references : ∀ {parent d}, c.Places parent d → ∀ {k}, ∀ m ∈ d.members k, ∀ {target name},
    Refers m.details target name →
      if name.toList.head? = some '/' then c.Declares target name
      else c.Declares target (qualify parent d.head.name ++ "/" ++ name)

end CatalogDefinition

/-- The names collected from a definition are its own and those collected from its children. -/
def Collects (names own : String → SystemDefinition → List String) : Prop :=
  ∀ parent d, (names parent d).Perm
    (own parent d ++ d.systems.flatMap (names (qualify parent d.head.name)))

namespace Collects

variable {c : CatalogDefinition} {names own : String → SystemDefinition → List String}

lemma below_subperm (h : Collects names own) {parent : String} {d : SystemDefinition} :
    (d.systems.flatMap (names (qualify parent d.head.name))).Subperm (names parent d) :=
  (List.sublist_append_right _ _).subperm.trans (h parent d).symm.subperm

/-- What is collected in one place is a part of what is collected in all. -/
lemma subperm_of_places (h : Collects names own) {parent : String} {d : SystemDefinition}
    (hp : c.Places parent d) : (names parent d).Subperm (c.systems.flatMap (names "")) := by
  have hchild : ∀ {q : String} {ds : List SystemDefinition} {e : SystemDefinition}, e ∈ ds →
      (names q e).Subperm (ds.flatMap (names q)) := fun he =>
    (List.sublist_flatten_of_mem (List.mem_map_of_mem he)).subperm
  induction hp with
  | top mem => exact hchild mem
  | inside above mem ih => exact (hchild mem).trans (h.below_subperm.trans ih)

lemma nodup_of_places (h : Collects names own) (hn : (c.systems.flatMap (names "")).Nodup)
    {parent : String} {d : SystemDefinition} (hp : c.Places parent d) :
    (own parent d ++ d.systems.flatMap (names (qualify parent d.head.name))).Nodup := by
  obtain ⟨l, hl, hs⟩ := h.subperm_of_places hp
  exact (h parent d).nodup_iff.1 (hl.nodup_iff.1 (hn.sublist hs))

end Collects

/-- The name stands `depth` segments below the place with the given segments. -/
def StandsBelow (a : List String) (depth : ℕ) (name : String) : Prop :=
  ∃ t, t.length = depth ∧ ValidSegments (a ++ t) ∧ name = ofSegments (a ++ t)

namespace StandsBelow

variable {a : List String} {m n : ℕ} {s s' name : String}

lemma up (h : StandsBelow (a ++ [s]) n name) : StandsBelow a (n + 1) name := by
  obtain ⟨t, rfl, ht, hn⟩ := h
  exact ⟨s :: t, rfl, by simpa using ht, by simpa using hn⟩

lemma depth_eq (h : StandsBelow a m name) (h' : StandsBelow a n name) : m = n := by
  obtain ⟨t, rfl, ht, rfl⟩ := h
  obtain ⟨t', rfl, ht', he⟩ := h'
  rw [List.append_cancel_left ((ofSegments_inj ht ht').1 he)]

lemma segment_eq (h : StandsBelow (a ++ [s]) m name) (h' : StandsBelow (a ++ [s']) n name) :
    s = s' := by
  obtain ⟨t, -, ht, rfl⟩ := h
  obtain ⟨t', -, ht', he⟩ := h'
  have hcons := (ofSegments_inj ht ht').1 he
  simp only [List.append_assoc, List.singleton_append] at hcons
  exact (List.cons.inj (List.append_cancel_left hcons)).1

lemma ne_empty (h : StandsBelow (a ++ [s]) n name) : name ≠ "" := by
  obtain ⟨t, -, -, rfl⟩ := h
  intro he
  have hnil := ofSegments_eq_empty_iff.1 he
  simp at hnil

end StandsBelow

namespace CatalogDefinition

variable {c : CatalogDefinition} {names own : String → SystemDefinition → List String} {depth : ℕ}

/-- Every definition has its own names, without repetition, `depth` segments below its place. -/
def Owns (c : CatalogDefinition) (own : String → SystemDefinition → List String) (depth : ℕ) :
    Prop :=
  ∀ {a d}, ValidSegments (a ++ [d.head.name]) → c.Places (ofSegments a) d →
    (own (ofSegments a) d).Nodup ∧
      ∀ name ∈ own (ofSegments a) d, StandsBelow (a ++ [d.head.name]) depth name

namespace WellFormed

lemma isValid_of_places (h : c.WellFormed) {parent : String} {d : SystemDefinition}
    (hp : c.Places parent d) : isValid d.head.name := isValid_iff.2 (h.systemName hp)

/-- A collected name stands below the place that it is collected from. -/
lemma standsBelow_of_mem (h : c.WellFormed) (hc : Collects names own) (ho : c.Owns own depth)
    {d : SystemDefinition} {a : List String} (ha : ValidSegments a) (hp : c.Places (ofSegments a) d)
    {name : String} (hn : name ∈ names (ofSegments a) d) :
    ∃ n, depth ≤ n ∧ StandsBelow (a ++ [d.head.name]) n name := by
  induction d using SystemDefinition.induction_on_systems generalizing a with
  | step d ih =>
    have had := ValidSegments.append_singleton.2 ⟨ha, h.isValid_of_places hp⟩
    rw [(hc _ _).mem_iff, List.mem_append, List.mem_flatMap] at hn
    rcases hn with hn | ⟨e, he, hn⟩
    · exact ⟨depth, le_rfl, (ho had hp).2 name hn⟩
    · have hpe := hp.inside he
      rw [qualify_ofSegments ha] at hn hpe
      obtain ⟨n, hle, hs⟩ := ih e he had hpe hn
      exact ⟨n + 1, hle.trans n.le_succ, hs.up⟩

/-- Siblings with different names keep apart what is collected from them. -/
lemma nodup_flatMap_siblings (h : c.WellFormed) (hc : Collects names own) (ho : c.Owns own depth)
    {ds : List SystemDefinition} (hds : (ds.map (·.head.name)).Nodup) {a : List String}
    (ha : ValidSegments a) (hp : ∀ d ∈ ds, c.Places (ofSegments a) d)
    (hd : ∀ d ∈ ds, (names (ofSegments a) d).Nodup) :
    (ds.flatMap (names (ofSegments a))).Nodup := by
  refine List.nodup_flatMap.2 ⟨hd, ?_⟩
  refine List.Pairwise.imp_of_mem ?_ (List.pairwise_map.1 hds)
  intro d e hdm hem hne name hnd hne'
  obtain ⟨_, -, hsd⟩ := h.standsBelow_of_mem hc ho ha (hp d hdm) hnd
  obtain ⟨_, -, hse⟩ := h.standsBelow_of_mem hc ho ha (hp e hem) hne'
  exact hne (hsd.segment_eq hse)

lemma nodup_of_places (h : c.WellFormed) (hc : Collects names own) (ho : c.Owns own depth)
    {d : SystemDefinition} {a : List String} (ha : ValidSegments a)
    (hp : c.Places (ofSegments a) d) : (names (ofSegments a) d).Nodup := by
  induction d using SystemDefinition.induction_on_systems generalizing a with
  | step d ih =>
    have had := ValidSegments.append_singleton.2 ⟨ha, h.isValid_of_places hp⟩
    have hpe : ∀ e ∈ d.systems, c.Places (ofSegments (a ++ [d.head.name])) e := fun e he =>
      qualify_ofSegments ha d.head.name ▸ hp.inside he
    obtain ⟨hown, hat⟩ := ho had hp
    rw [(hc _ _).nodup_iff, qualify_ofSegments ha, List.nodup_append']
    refine ⟨hown, h.nodup_flatMap_siblings hc ho (h.systems hp) had hpe
      fun e he => ih e he had (hpe e he), ?_⟩
    -- What the definition has itself stands higher than all that is below it.
    intro name hn hbelow
    obtain ⟨e, he, hn'⟩ := List.mem_flatMap.1 hbelow
    obtain ⟨n, hle, hs⟩ := h.standsBelow_of_mem hc ho had (hpe e he) hn'
    have hdepth := (hat name hn).depth_eq hs.up
    omega

lemma ne_empty_of_mem (h : c.WellFormed) (hc : Collects names own) (ho : c.Owns own depth)
    {name : String} (hn : name ∈ c.systems.flatMap (names "")) : name ≠ "" := by
  obtain ⟨d, hd, hn⟩ := List.mem_flatMap.1 hn
  have hroot : ValidSegments [] := by simp [ValidSegments]
  obtain ⟨_, -, hs⟩ := h.standsBelow_of_mem hc ho hroot (.top hd) hn
  exact hs.ne_empty

theorem nodup_names (h : c.WellFormed) (hc : Collects names own) (ho : c.Owns own depth) :
    (c.systems.flatMap (names "")).Nodup := by
  have hroot : ValidSegments [] := by simp [ValidSegments]
  have hp : ∀ d ∈ c.systems, c.Places (ofSegments []) d := fun d hd => .top hd
  exact h.nodup_flatMap_siblings hc ho h.top hroot hp
    fun d hd => h.nodup_of_places hc ho hroot (hp d hd)

end WellFormed

end CatalogDefinition

end MissionCatalog
