import MissionCatalog.Proofs.Database.Acceptance

/-!
# Who uses what

The pass through the containers notes a container under an entry as often as it has the entry, and
sorting the notes leaves each name once. So the index is the entries read backwards: under an entry
stand just the containers that have it.
-/
namespace MissionCatalog

namespace UserIndex

lemma eraseRepsBy_loop (name : String) (names before : List String) :
    List.eraseRepsBy.loop (· == ·) name names before =
      before.reverse ++ names.destutter' (· ≠ ·) name := by
  induction names generalizing name before with
  | nil => simp [List.eraseRepsBy.loop]
  | cons next names ih =>
    rw [List.eraseRepsBy.loop, List.destutter'_cons]
    by_cases h : name = next
    · subst h
      simp [ih]
    · simp [beq_false_of_ne h, h, ih]

lemma eraseReps_eq_destutter (names : List String) :
    names.eraseReps = names.destutter (· ≠ ·) := by
  cases names with
  | nil => rfl
  | cons name names => exact eraseRepsBy_loop name names []

/-- In a sorted list the repetitions of a name stand side by side. -/
lemma tidy_eq_dedup (users : List String) : tidy users = users.mergeSort.dedup := by
  rw [tidy, eraseReps_eq_destutter, (pairwise_le_mergeSort users).destutter_eq_dedup]

lemma mem_tidy {users : List String} {user : String} : user ∈ tidy users ↔ user ∈ users := by
  rw [tidy_eq_dedup, List.mem_dedup, List.mem_mergeSort]

lemma increasing_tidy (users : List String) : (tidy users).Pairwise (· < ·) := by
  have hle := (pairwise_le_mergeSort users).sublist (List.dedup_sublist _)
  have hne : users.mergeSort.dedup.Pairwise (· ≠ ·) := List.nodup_dedup _
  rw [tidy_eq_dedup]
  exact (hle.and hne).imp fun hab => lt_of_le_of_ne hab.1 hab.2

lemma mem_noteIn {notes : Directory (List String)} {name key user other : String} :
    other ∈ ((noteIn notes name user).get? key).getD [] ↔
      other ∈ (notes.get? key).getD [] ∨ name = key ∧ other = user := by
  rw [noteIn, Directory.get?_put]
  by_cases h : key = name
  · subst h
    simp
  · simp [h, Ne.symm h]

lemma mem_having_note {index : UserIndex} {user other : String} {first entry : ContainerEntry} :
    other ∈ (index.note user first).having entry ↔
      other ∈ index.having entry ∨ first = entry ∧ other = user := by
  cases first with
  | parameter name =>
    cases entry with
    | parameter key => simp only [having, note, mem_noteIn, ContainerEntry.parameter.injEq]
    | container key => simp [having, note]
  | container name =>
    cases entry with
    | parameter key => simp [having, note]
    | container key => simp only [having, note, mem_noteIn, ContainerEntry.container.injEq]

lemma mem_having_noteAll {index : UserIndex} {c : Container} {user : String}
    {entry : ContainerEntry} : user ∈ (index.noteAll c).having entry ↔
      user ∈ index.having entry ∨ entry ∈ c.details.entries ∧ user = c.qualifiedName := by
  unfold noteAll
  induction c.details.entries generalizing index with
  | nil => simp
  | cons first entries ih =>
    rw [List.foldl_cons, ih, mem_having_note, List.mem_cons, eq_comm (a := entry)]
    tauto

/-- What stands under an entry after some of the containers: the names of those with the entry. -/
lemma mem_having_foldl {index : UserIndex} {containers : List Container} {user : String}
    {entry : ContainerEntry} : user ∈ (containers.foldl noteAll index).having entry ↔
      user ∈ index.having entry ∨
        ∃ c ∈ containers, entry ∈ c.details.entries ∧ user = c.qualifiedName := by
  induction containers generalizing index with
  | nil => simp
  | cons c containers ih =>
    rw [List.foldl_cons, ih, mem_having_noteAll, List.exists_mem_cons_iff, or_assoc]

lemma having_empty (entry : ContainerEntry) : empty.having entry = [] := by cases entry <;> rfl

lemma having_ofContainers (containers : List Container) (entry : ContainerEntry) :
    (ofContainers containers).having entry = tidy ((containers.foldl noteAll empty).having entry) := by
  have hget : ∀ (notes : Directory (List String)) name,
      ((notes.map tidy).get? name).getD [] = tidy ((notes.get? name).getD []) := by
    intro notes name
    rw [Directory.get?_map]
    cases notes.get? name <;> simp [tidy_eq_dedup]
  cases entry with
  | parameter name => exact hget _ name
  | container name => exact hget _ name

lemma mem_having_ofContainers {containers : List Container} {user : String}
    {entry : ContainerEntry} : user ∈ (ofContainers containers).having entry ↔
      ∃ c ∈ containers, entry ∈ c.details.entries ∧ user = c.qualifiedName := by
  rw [having_ofContainers, mem_tidy, mem_having_foldl, having_empty]
  simp

lemma increasing_having_ofContainers (containers : List Container) (entry : ContainerEntry) :
    ((ofContainers containers).having entry).Pairwise (· < ·) := by
  rw [having_ofContainers]
  exact increasing_tidy _

end UserIndex

namespace Database

variable {db : Database} {c : CatalogDefinition} {entry : ContainerEntry}

namespace Holds

/-- No name in the index is lost when it is looked up. -/
lemma map_containersWith (h : db.Holds c) (entry : ContainerEntry) :
    (db.containersWith entry).map Entity.qualifiedName = db.users.having entry := by
  have hfound : ∀ user ∈ db.users.having entry,
      ((db.table .container).get? user).map Entity.qualifiedName = some user := by
    intro user huser
    rw [h.users, UserIndex.mem_having_ofContainers] at huser
    obtain ⟨d, hd, -, rfl⟩ := huser
    have hget := (h.consistent .container).get?_eq_some_iff.2 ⟨hd, rfl⟩
    exact congrArg (Option.map Entity.qualifiedName) hget
  rw [containersWith, List.map_filterMap, List.filterMap_congr hfound, List.filterMap_some]

lemma mem_containersWith (h : db.Holds c) {user : Container} :
    user ∈ db.containersWith entry ↔
      user ∈ (db.table .container).sorted ∧ entry ∈ user.details.entries := by
  simp only [containersWith, List.mem_filterMap, h.users, UserIndex.mem_having_ofContainers,
    (h.consistent .container).get?_eq_some_iff]
  constructor
  · rintro ⟨_, ⟨d, hd, hentry, rfl⟩, huser, hname⟩
    obtain rfl := (h.consistent .container).eq_of_name huser hd hname
    exact ⟨huser, hentry⟩
  · rintro ⟨huser, hentry⟩
    exact ⟨_, ⟨user, huser, hentry, rfl⟩, huser, rfl⟩

lemma increasing_containersWith (h : db.Holds c) (entry : ContainerEntry) :
    (db.containersWith entry).Pairwise fun a b => a.qualifiedName < b.qualifiedName := by
  rw [← List.pairwise_map, h.map_containersWith, h.users]
  exact UserIndex.increasing_having_ofContainers _ entry

end Holds

/-- The users of a parameter or of a container are just the containers that have an entry for it, each
once and in ascending order, however often they have the entry; no name in the index is lost. An entry
for a parameter is none for a container of the same name, and a container may use itself. -/
theorem users_exact (built : build c = .ok db) (entry : ContainerEntry) :
    (∀ user, user ∈ db.containersWith entry ↔
      user ∈ (db.table .container).sorted ∧ entry ∈ user.details.entries) ∧
    ((db.containersWith entry).Pairwise fun a b => a.qualifiedName < b.qualifiedName) ∧
    (db.containersWith entry).map Entity.qualifiedName = db.users.having entry := by
  have h := holds_of_build built
  exact ⟨fun _ => h.mem_containersWith, h.increasing_containersWith entry,
    h.map_containersWith entry⟩

/-- The parameter and the container `X` have one name. The container has two entries for each of
them, and `A` one for the container. -/
def selfishCatalog : CatalogDefinition where
  name := "selfish"
  version := none
  systems := [{
    head := ⟨"S", none, none, []⟩
    version := none
    parameterTypes := []
    parameters := [⟨⟨"X", none, none, []⟩, ⟨none, none⟩⟩]
    containers := [
      ⟨⟨"X", none, none, []⟩,
        ⟨none, false, none, [.container "X", .parameter "X", .parameter "/S/X", .container "X"]⟩⟩,
      ⟨⟨"A", none, none, []⟩, ⟨none, false, none, [.container "/S/X"]⟩⟩]
    commands := []
    algorithms := []
    systems := [] }]

theorem users_exact_selfish : ∃ db, build selfishCatalog = .ok db ∧
    ∃ x, x.qualifiedName = "/S/X" ∧ ∃ a, a.qualifiedName = "/S/A" ∧
      x ∈ db.containersWith (.parameter "/S/X") ∧ x ∈ db.containersWith (.container "/S/X") ∧
      a ∉ db.containersWith (.parameter "/S/X") ∧ a ∈ db.containersWith (.container "/S/X") ∧
      (db.users.having (.container "/S/X")).Nodup := by
  obtain ⟨db, hb⟩ := CatalogDefinition.exists_build_iff_passes.2
    (show selfishCatalog.Passes by decide +kernel)
  have hrows : (∃ x ∈ (db.table .container).sorted, x.qualifiedName = "/S/X" ∧
        .parameter "/S/X" ∈ x.details.entries ∧ .container "/S/X" ∈ x.details.entries) ∧
      ∃ a ∈ (db.table .container).sorted, a.qualifiedName = "/S/A" ∧
        .parameter "/S/X" ∉ a.details.entries ∧ .container "/S/X" ∈ a.details.entries := by
    rw [(holds_of_build hb).table_eq]
    decide +kernel
  obtain ⟨⟨x, hx, hxname, hxparameter, hxcontainer⟩, a, ha, haname, haparameter, hacontainer⟩ := hrows
  obtain ⟨hparameter, -, -⟩ := users_exact hb (.parameter "/S/X")
  obtain ⟨hcontainer, hincreasing, hnames⟩ := users_exact hb (.container "/S/X")
  refine ⟨db, hb, x, hxname, a, haname, (hparameter x).2 ⟨hx, hxparameter⟩,
    (hcontainer x).2 ⟨hx, hxcontainer⟩, fun h => haparameter ((hparameter a).1 h).2,
    (hcontainer a).2 ⟨ha, hacontainer⟩, ?_⟩
  rw [← hnames]
  exact List.pairwise_map.2 (hincreasing.imp ne_of_lt)

end Database

end MissionCatalog
