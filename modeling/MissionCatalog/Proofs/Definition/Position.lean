import MissionCatalog.Proofs.Database.Acceptance

/-!
# Positions in a catalog

A position says where in the text of a catalog a definition stands: which one it is in its list, and
which definitions the list is inside. Two definitions that say the same stand in two positions. In a
well-formed catalog a position is known by the names on the way to it.
-/
namespace MissionCatalog
open Name

lemma index_eq_of_nodup_map {α β : Type} {items : List α} {f : α → β} (h : (items.map f).Nodup)
    {i j : Fin items.length} (hij : f (items.get i) = f (items.get j)) : i = j := by
  apply Fin.ext
  have hi : i < (items.map f).length := by simp
  have hj : j < (items.map f).length := by simp
  have heq : (items.map f)[i.val] = (items.map f)[j.val] := by simpa using hij
  exact h.getElem_inj_iff.1 heq

/-- A definition in the list, or somewhere inside one of the list. -/
inductive SystemDefinition.Position : List SystemDefinition → Type
  | here {ds : List SystemDefinition} (i : Fin ds.length) : Position ds
  | inside {ds : List SystemDefinition} (i : Fin ds.length) (p : Position (ds.get i).systems) :
      Position ds

namespace SystemDefinition.Position

variable {ds : List SystemDefinition}

def definition : {ds : List SystemDefinition} → Position ds → SystemDefinition
  | ds, here i => ds.get i
  | _, inside _ p => p.definition

/-- The names of the space systems around the definition, the outermost first. -/
def around : {ds : List SystemDefinition} → Position ds → List String
  | _, here _ => []
  | ds, inside i p => (ds.get i).head.name :: p.around

/-- The names on the way to the definition, its own last. -/
def path (p : Position ds) : List String := p.around ++ [p.definition.head.name]

def child : {ds : List SystemDefinition} → (p : Position ds) → Fin p.definition.systems.length →
    Position ds
  | _, here i, j => inside i (here j)
  | _, inside i p, j => inside i (p.child j)

lemma path_ne_nil (p : Position ds) : p.path ≠ [] := by simp [path]

lemma definition_child (p : Position ds) (j : Fin p.definition.systems.length) :
    (p.child j).definition = p.definition.systems.get j := by
  induction p with
  | here i => rfl
  | inside i p ih => exact ih j

lemma around_child (p : Position ds) (j : Fin p.definition.systems.length) :
    (p.child j).around = p.path := by
  induction p with
  | here i => rfl
  | inside i p ih => exact congrArg (_ :: ·) (ih j)

end SystemDefinition.Position

structure SystemDefinition.MemberPosition (ds : List SystemDefinition) (k : MemberKind) where
  system : Position ds
  index : Fin (system.definition.members k).length

namespace SystemDefinition.MemberPosition

variable {ds : List SystemDefinition} {k : MemberKind}

def definition (p : MemberPosition ds k) : MemberDefinition k :=
  (p.system.definition.members k).get p.index

/-- The names on the way to the member, its own last. -/
def path (p : MemberPosition ds k) : List String := p.system.path ++ [p.definition.head.name]

end SystemDefinition.MemberPosition

namespace CatalogDefinition.WellFormed

open SystemDefinition (Position MemberPosition)

variable {c : CatalogDefinition} {ds : List SystemDefinition} {k : MemberKind}

/-- What stands in a position stands in the place that the names around it lead to. -/
lemma places_of_position (h : c.WellFormed) {a : List String} (ha : ValidSegments a)
    (hds : ∀ d ∈ ds, c.Places (ofSegments a) d) (p : Position ds) :
    c.Places (ofSegments (a ++ p.around)) p.definition ∧ ValidSegments (a ++ p.path) := by
  induction p generalizing a with
  | @here ds i =>
    have hi := hds _ (ds.get_mem i)
    refine ⟨?_, ?_⟩
    · rw [Position.around, List.append_nil]
      exact hi
    · exact ValidSegments.append_singleton.2 ⟨ha, h.isValid_of_places hi⟩
  | @inside ds i p ih =>
    have hi := hds _ (ds.get_mem i)
    have hai := ValidSegments.append_singleton.2 ⟨ha, h.isValid_of_places hi⟩
    have hbelow : ∀ d ∈ (ds.get i).systems,
        c.Places (ofSegments (a ++ [(ds.get i).head.name])) d := by
      intro d hd
      rw [← qualify_ofSegments ha]
      exact hi.inside hd
    have hp := ih hai hbelow
    rwa [List.append_assoc, List.append_assoc] at hp

lemma places (h : c.WellFormed) (p : Position c.systems) :
    c.Places (ofSegments p.around) p.definition ∧ ValidSegments p.path :=
  h.places_of_position (a := []) (by simp [ValidSegments]) (fun _ hd => .top hd) p

lemma validSegments_around (h : c.WellFormed) (p : Position c.systems) : ValidSegments p.around :=
  (ValidSegments.append_singleton.1 (h.places p).2).1

lemma exists_position (h : c.WellFormed) {parent : String} {d : SystemDefinition}
    (hp : c.Places parent d) :
    ∃ p : Position c.systems, p.definition = d ∧ ofSegments p.around = parent := by
  induction hp with
  | top mem =>
    obtain ⟨i, hi⟩ := List.mem_iff_get.1 mem
    exact ⟨.here i, hi, rfl⟩
  | inside above mem ih =>
    obtain ⟨p, rfl, rfl⟩ := ih
    obtain ⟨j, hj⟩ := List.mem_iff_get.1 mem
    refine ⟨p.child j, (p.definition_child j).trans hj, ?_⟩
    rw [p.around_child, qualify_ofSegments (h.validSegments_around p)]
    rfl

lemma eq_of_path_eq (h : c.WellFormed) {parent : String} (hds : ∀ d ∈ ds, c.Places parent d)
    (hn : (ds.map (·.head.name)).Nodup) {p q : Position ds} (hpq : p.path = q.path) : p = q := by
  induction p generalizing parent with
  | @here ds i =>
    cases q with
    | here j =>
      rw [index_eq_of_nodup_map hn (List.cons.inj hpq).1]
    | inside j q => exact absurd (List.cons.inj hpq).2.symm q.path_ne_nil
  | @inside ds i p ih =>
    cases q with
    | here j => exact absurd (List.cons.inj hpq).2 p.path_ne_nil
    | inside j q =>
      obtain ⟨hname, hrest⟩ := List.cons.inj hpq
      obtain rfl := index_eq_of_nodup_map hn hname
      have hi := hds _ (ds.get_mem i)
      rw [ih (fun d hd => hi.inside hd) (h.systems hi) hrest]

lemma path_injective (h : c.WellFormed) :
    Function.Injective (Position.path : Position c.systems → List String) := fun _ _ hpq =>
  h.eq_of_path_eq (fun _ hd => .top hd) h.top hpq

lemma memberPath_injective (h : c.WellFormed) :
    Function.Injective (MemberPosition.path : MemberPosition c.systems k → List String) := by
  rintro ⟨p, i⟩ ⟨q, j⟩ hpq
  obtain ⟨hsystem, hname⟩ := List.append_inj' hpq rfl
  obtain rfl : p = q := h.path_injective hsystem
  obtain rfl : i = j := index_eq_of_nodup_map (h.members (h.places p).1 k) (List.cons.inj hname).1
  rfl

end CatalogDefinition.WellFormed

end MissionCatalog
