import MissionCatalog.Proofs.Database.Index
import MissionCatalog.Proofs.Resolve.Lookup
import MissionCatalog.View

/-!
# Batches of ids

A batch is answered id by id. An id that names no parameter fails the whole batch, whoever asks; a
parameter that the user may not read is left out.
-/
namespace MissionCatalog

/-- The id is a key of the entity, or without a namespace its qualified name. -/
def Entity.IsDeclaredFor {k : MemberKind} (e : Entity k) (id : ObjectId) : Prop :=
  match id.space? with
  | some ns => e.IsDeclaredUnder ⟨ns, id.name⟩
  | none => e.qualifiedName = id.name

namespace Database

lemma Holds.getById?_eq_some_iff {db : Database} {c : CatalogDefinition} {k : MemberKind}
    (h : db.Holds c) {id : ObjectId} {e : Entity k} :
    (db.table k).getById? id = some e ↔ e ∈ (db.table k).sorted ∧ e.IsDeclaredFor id := by
  rw [h.mem_sorted_iff]
  obtain ⟨name, _ | ns⟩ := id
  · exact (h.exact_table k).byName name e
  · exact (h.exact_table k).byKey ns name e

/-- The id has a name, and the parameter is declared for it. -/
def Names (db : Database) (id : ObjectId) (p : Parameter) : Prop :=
  id.name ≠ "" ∧ p ∈ (db.table .parameter).sorted ∧ p.IsDeclaredFor id

/-- The id has no name, or no parameter is declared for it. -/
def IsBadId (db : Database) (id : ObjectId) : Prop :=
  id.name = "" ∨ ∀ p ∈ (db.table .parameter).sorted, ¬p.IsDeclaredFor id

lemma isBadId_iff {db : Database} {id : ObjectId} : db.IsBadId id ↔ ∀ p, ¬db.Names id p := by
  simp only [IsBadId, Names, not_and]
  by_cases hname : id.name = "" <;> simp [hname]

end Database

namespace View

variable {v : View} {c : CatalogDefinition}

/-- What the user is told of an id that names no parameter. -/
def badIdError (id : ObjectId) : QueryError :=
  if id.name = "" then .unnamedId else .unknownId id

/-- The items answer the ids in their order, each with the parameter that it names, but for the
parameters that the user may not read. -/
inductive Answers (v : View) : List ObjectId → List BatchItem → Prop
  | nil : Answers v [] []
  | shown {id : ObjectId} {p : Parameter} {ids : List ObjectId} {items : List BatchItem}
      (names : v.db.Names id p) (access : v.mayRead p) (rest : Answers v ids items) :
      Answers v (id :: ids) (⟨id, p⟩ :: items)
  | hidden {id : ObjectId} {p : Parameter} {ids : List ObjectId} {items : List BatchItem}
      (names : v.db.Names id p) (access : ¬v.mayRead p) (rest : Answers v ids items) :
      Answers v (id :: ids) items

lemma parameterOf_eq_ok_iff (built : Database.build c = .ok v.db) {id : ObjectId} {p : Parameter} :
    v.parameterOf id = .ok p ↔ v.db.Names id p := by
  rw [Database.Names, ← (Database.holds_of_build built).getById?_eq_some_iff, parameterOf]
  split
  · next hname => simp [hname]
  · next hname => cases (v.db.table .parameter).getById? id <;> simp [hname]

lemma parameterOf_eq_error_iff (built : Database.build c = .ok v.db) {id : ObjectId}
    {e : QueryError} : v.parameterOf id = .error e ↔ v.db.IsBadId id ∧ e = badIdError id := by
  rw [Database.isBadId_iff]
  simp only [← parameterOf_eq_ok_iff built]
  rw [parameterOf, badIdError]
  split
  · simp [eq_comm]
  · cases (v.db.table .parameter).getById? id <;> simp [eq_comm]

lemma batch_nil : v.batch [] = .ok [] := rfl

lemma batch_cons (id : ObjectId) (ids : List ObjectId) :
    v.batch (id :: ids) = v.parameterOf id >>= fun p => (v.batch ids).map fun items =>
      if v.mayRead p then ⟨id, p⟩ :: items else items := by
  rw [batch, batch, List.mapM_cons]
  cases v.parameterOf id with
  | error e => rfl
  | ok p =>
    cases ids.mapM fun id => (v.parameterOf id).map (BatchItem.mk id) with
    | error e => rfl
    | ok items =>
      refine congrArg Except.ok ?_
      exact List.filter_cons

lemma batch_eq_ok_iff (built : Database.build c = .ok v.db) {ids : List ObjectId}
    {items : List BatchItem} : v.batch ids = .ok items ↔ v.Answers ids items := by
  induction ids generalizing items with
  | nil =>
    rw [batch_nil, Except.ok.injEq]
    constructor
    · rintro rfl
      exact .nil
    · intro h
      cases h
      rfl
  | cons id ids ih =>
    simp only [batch_cons, bind_eq_ok, map_eq_ok, parameterOf_eq_ok_iff built, ih]
    constructor
    · rintro ⟨p, names, others, rest, rfl⟩
      split
      · next access => exact .shown names access rest
      · next access => exact .hidden names access rest
    · intro h
      cases h with
      | shown names access rest => exact ⟨_, names, _, rest, if_pos access⟩
      | hidden names access rest => exact ⟨_, names, _, rest, if_neg access⟩

lemma batch_eq_error_iff (built : Database.build c = .ok v.db) {ids : List ObjectId}
    {e : QueryError} : v.batch ids = .error e ↔ ∃ before id after, ids = before ++ id :: after ∧
      (∀ i ∈ before, ¬v.db.IsBadId i) ∧ v.db.IsBadId id ∧ e = badIdError id := by
  induction ids with
  | nil => simp [batch_nil]
  | cons id ids ih =>
    rw [batch_cons]
    constructor
    · intro h
      rcases bind_eq_error.1 h with herror | ⟨p, hp, hrest⟩
      · obtain ⟨hbad, rfl⟩ := (parameterOf_eq_error_iff built).1 herror
        exact ⟨[], id, ids, rfl, by simp, hbad, rfl⟩
      · have hgood : ¬v.db.IsBadId id := by
          rw [Database.isBadId_iff]
          exact fun hnone => hnone p ((parameterOf_eq_ok_iff built).1 hp)
        obtain ⟨before, bad, after, rfl, hbefore, hbad⟩ := ih.1 (map_eq_error.1 hrest)
        exact ⟨id :: before, bad, after, rfl, List.forall_mem_cons.2 ⟨hgood, hbefore⟩, hbad⟩
    · rintro ⟨_ | ⟨first, before⟩, bad, after, heq, hbefore, hbad, rfl⟩
      · obtain ⟨rfl, rfl⟩ := List.cons.inj heq
        exact bind_eq_error.2 (.inl ((parameterOf_eq_error_iff built).2 ⟨hbad, rfl⟩))
      · obtain ⟨rfl, rfl⟩ := List.cons.inj heq
        obtain ⟨hgood, hbefore⟩ := List.forall_mem_cons.1 hbefore
        obtain ⟨p, hp⟩ : ∃ p, v.db.Names id p := by
          simpa [Database.isBadId_iff] using hgood
        have hrest := ih.2 ⟨before, bad, after, rfl, hbefore, hbad, rfl⟩
        exact bind_eq_error.2
          (.inr ⟨p, (parameterOf_eq_ok_iff built).2 hp, map_eq_error.2 hrest⟩)

lemma category_badIdError (id : ObjectId) : (badIdError id).category = .badRequest := by
  rw [badIdError]
  split <;> rfl

lemma Answers.not_isBadId {ids : List ObjectId} {items : List BatchItem} (h : v.Answers ids items) :
    ∀ id ∈ ids, ¬v.db.IsBadId id := by
  induction h with
  | nil => simp
  | shown names access rest ih | hidden names access rest ih =>
    exact List.forall_mem_cons.2 ⟨fun hbad => Database.isBadId_iff.1 hbad _ names, ih⟩

/-- A batch fails just if some id in it has no name or is declared for no parameter, whatever the user
may read: then it is a bad request, for the first of these ids. Otherwise it shows the ids whose
parameter the user may read, in their order and as often as they are asked for. -/
theorem batch_answered (built : Database.build c = .ok v.db) (ids : List ObjectId) :
    ((∃ e, v.batch ids = .error e) ↔ ∃ id ∈ ids, v.db.IsBadId id) ∧
      (∀ e, v.batch ids = .error e ↔ ∃ before id after, ids = before ++ id :: after ∧
        (∀ i ∈ before, ¬v.db.IsBadId i) ∧ v.db.IsBadId id ∧ e = badIdError id) ∧
      (∀ e, v.batch ids = .error e → e.category = .badRequest) ∧
      ∀ items, v.batch ids = .ok items ↔ v.Answers ids items := by
  refine ⟨⟨?_, ?_⟩, fun e => batch_eq_error_iff built, fun e h => ?_,
    fun items => batch_eq_ok_iff built⟩
  · rintro ⟨e, h⟩
    obtain ⟨before, id, after, rfl, -, hbad, -⟩ := (batch_eq_error_iff built).1 h
    exact ⟨id, by simp, hbad⟩
  · rintro ⟨id, hid, hbad⟩
    cases hbatch : v.batch ids with
    | error e => exact ⟨e, rfl⟩
    | ok items => exact absurd hbad (((batch_eq_ok_iff built).1 hbatch).not_isBadId id hid)
  · obtain ⟨_, id, _, -, -, -, rfl⟩ := (batch_eq_error_iff built).1 h
    exact category_badIdError id

/-- `P` may be read, `Q` not, whose alias is the key of `P` with one more slash. A name without a
namespace is no qualified name. -/
theorem batch_answered_awkward : ∃ db, Database.build awkwardCatalog = .ok db ∧
    ∃ v : View, v.db = db ∧
      (∃ p, p.qualifiedName = "/S/P" ∧
        v.batch [⟨"P", some "/S"⟩, ⟨"P", some "//S"⟩, ⟨"/S/P", none⟩, ⟨"P", some "/S"⟩] =
          .ok [⟨⟨"P", some "/S"⟩, p⟩, ⟨⟨"/S/P", none⟩, p⟩, ⟨⟨"P", some "/S"⟩, p⟩]) ∧
      v.batch [⟨"P", some "//S"⟩, ⟨"P", none⟩, ⟨"", none⟩] = .error (.unknownId ⟨"P", none⟩) := by
  obtain ⟨db, hb⟩ := exists_build_awkwardCatalog
  let v : View := ⟨db, ⟨"ops", false, fun _ name => name = "/S/P"⟩, 100⟩
  have hbuilt : Database.build awkwardCatalog = .ok v.db := hb
  have hrows : (∃ p ∈ (db.table .parameter).sorted, ⟨"/S", "P"⟩ ∈ p.keys ∧
        p.qualifiedName = "/S/P") ∧
      (∃ q ∈ (db.table .parameter).sorted, ⟨"//S", "P"⟩ ∈ q.keys ∧ q.qualifiedName = "/S/Q") ∧
      ∀ p ∈ (db.table .parameter).sorted, p.qualifiedName ≠ "P" := by
    rw [(Database.holds_of_build hb).table_eq]
    decide +kernel
  obtain ⟨⟨p, hp, hpkey, hpname⟩, ⟨q, hq, hqkey, hqname⟩, hfree⟩ := hrows
  have hkey : db.Names ⟨"P", some "/S"⟩ p := ⟨by decide, hp, Entity.mem_keys.1 hpkey⟩
  have hname : db.Names ⟨"/S/P", none⟩ p := ⟨by decide, hp, hpname⟩
  have halias : db.Names ⟨"P", some "//S"⟩ q := ⟨by decide, hq, Entity.mem_keys.1 hqkey⟩
  have hread : v.mayRead p := by simp [mayRead, Viewer.hasAccess, v, hpname]
  have hrefused : ¬v.mayRead q := by simp [mayRead, Viewer.hasAccess, v, hqname]
  refine ⟨db, hb, v, rfl, ⟨p, hpname, ?_⟩, ?_⟩
  · obtain ⟨-, -, -, hshown⟩ := batch_answered hbuilt
      [⟨"P", some "/S"⟩, ⟨"P", some "//S"⟩, ⟨"/S/P", none⟩, ⟨"P", some "/S"⟩]
    exact (hshown _).2 (.shown hkey hread (.hidden halias hrefused
      (.shown hname hread (.shown hkey hread .nil))))
  · obtain ⟨-, hfails, -⟩ := batch_answered hbuilt [⟨"P", some "//S"⟩, ⟨"P", none⟩, ⟨"", none⟩]
    refine (hfails _).2 ⟨[⟨"P", some "//S"⟩], ⟨"P", none⟩, [⟨"", none⟩], rfl, ?_, .inr hfree, rfl⟩
    rw [List.forall_mem_singleton, Database.isBadId_iff]
    exact fun hnone => hnone q halias

end View

end MissionCatalog
