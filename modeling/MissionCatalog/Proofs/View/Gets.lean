import MissionCatalog.Proofs.Resolve.Member
import MissionCatalog.View

/-!
# Asking for one entity

What a path leads to is shown to those who may read it and refused to all others. Only then is the
member looked at that the path of a parameter asks for. So a refusal says nothing about the path but
that it leads to the parameter.
-/
namespace MissionCatalog

/-- The answer is what was asked for, or an error of one of two categories, as three conditions
say. -/
structure IsDecided {α : Type} (answer : Except QueryError α) (granted : α → Prop)
    (refused : QueryError → Prop) (missing : Prop) : Prop where
  ok_iff : ∀ a, answer = .ok a ↔ granted a
  forbidden_iff : ∀ e, answer = .error e ∧ e.category = .forbidden ↔ refused e
  notFound_iff : (∃ e, answer = .error e ∧ e.category = .notFound) ↔ missing
  ne_badRequest : ∀ e, answer = .error e → e.category ≠ .badRequest

namespace IsDecided

variable {α : Type} {answer : Except QueryError α} {granted : α → Prop}
  {refused : QueryError → Prop} {missing : Prop}

lemma of_ok {a : α} (h : answer = .ok a) (hgranted : ∀ b, granted b ↔ a = b)
    (hrefused : ∀ e, ¬refused e) (hmissing : ¬missing) :
    IsDecided answer granted refused missing := by
  subst h
  constructor <;> simp [hgranted, hrefused, hmissing]

lemma of_forbidden {e : QueryError} (h : answer = .error e) (hcategory : e.category = .forbidden)
    (hgranted : ∀ b, ¬granted b) (hrefused : ∀ e', refused e' ↔ e = e') (hmissing : ¬missing) :
    IsDecided answer granted refused missing := by
  subst h
  constructor
  · simp [hgranted]
  · intro e'
    rw [hrefused, Except.error.injEq]
    exact and_iff_left_of_imp fun he => he ▸ hcategory
  · simp [hcategory, hmissing]
  · simp [hcategory]

lemma of_notFound {e : QueryError} (h : answer = .error e) (hcategory : e.category = .notFound)
    (hgranted : ∀ b, ¬granted b) (hrefused : ∀ e, ¬refused e) (hmissing : missing) :
    IsDecided answer granted refused missing := by
  subst h
  constructor
  · simp [hgranted]
  · intro e'
    rw [Except.error.injEq]
    refine iff_of_false ?_ (hrefused e')
    intro h
    obtain ⟨rfl, hforbidden⟩ := h
    simp [hcategory] at hforbidden
  · simp [hcategory, hmissing]
  · simp [hcategory]

end IsDecided

namespace View

variable {v : View} {path : String}

lemma authorize_eq_ok_iff {k : MemberKind} {e : Entity k} :
    v.authorize e = .ok () ↔ v.viewer.hasAccess k e.qualifiedName := by
  rw [authorize]
  split <;> simp_all

lemma authorize_eq_error {k : MemberKind} {e : Entity k}
    (h : ¬v.viewer.hasAccess k e.qualifiedName) :
    v.authorize e = .error (.noAccess k e.qualifiedName) := by
  rw [authorize, if_neg h]

/-- The answer is decided by what the path leads to: this is shown or refused, or there is nothing. -/
def Decides (v : View) (k : MemberKind) (path : String)
    (answer : Except QueryError (Entity k)) : Prop :=
  IsDecided answer
    (fun e => ∃ found, v.db.resolve k path = .ok found ∧
      v.viewer.hasAccess k found.entity.qualifiedName ∧ found.entity = e)
    (fun error => ∃ found, v.db.resolve k path = .ok found ∧
      ¬v.viewer.hasAccess k found.entity.qualifiedName ∧
      .noAccess k found.entity.qualifiedName = error)
    (∀ found, v.db.resolve k path ≠ .ok found)

lemma decides_get (v : View) (k : MemberKind) (path : String) :
    v.Decides k path (v.get k path) := by
  unfold Decides get
  cases hresolve : v.db.resolve k path with
  | error error =>
    have hcategory := Table.category_of_resolve hresolve
    exact .of_notFound rfl hcategory (by simp) (by simp) (by simp)
  | ok found =>
    rw [ok_bind]
    by_cases haccess : v.viewer.hasAccess k found.entity.qualifiedName
    · rw [authorize_eq_ok_iff.2 haccess]
      exact .of_ok rfl (by simp [haccess]) (by simp [haccess]) (by simp)
    · rw [authorize_eq_error haccess]
      exact .of_forbidden rfl rfl (by simp [haccess]) (by simp [haccess]) (by simp)

variable {ref : ParameterRef}

lemma getParameter_of_refused (h : v.db.RefersTo path ref) (hrefused : ¬v.mayRead ref.parameter) :
    v.getParameter path = .error (.noAccess (.member .parameter) ref.parameter.qualifiedName) := by
  unfold getParameter
  rw [Database.resolveParameter_eq_ok_iff.2 h, ok_bind, authorize_eq_error hrefused]
  rfl

lemma getParameter_of_mayRead (h : v.db.RefersTo path ref) (hread : v.mayRead ref.parameter) :
    v.getParameter path = (ref.verify v.db).map fun _ => ref := by
  unfold getParameter
  rw [Database.resolveParameter_eq_ok_iff.2 h, ok_bind, authorize_eq_ok_iff.2 hread, ok_bind]
  rfl

lemma getParameter_decided (v : View) (path : String) : IsDecided (v.getParameter path)
    (fun ref => v.db.RefersTo path ref ∧ v.mayRead ref.parameter ∧ ref.verify v.db = .ok ())
    (fun error => ∃ ref, v.db.RefersTo path ref ∧ ¬v.mayRead ref.parameter ∧
      .noAccess (.member .parameter) ref.parameter.qualifiedName = error)
    (∀ ref, v.db.RefersTo path ref → v.mayRead ref.parameter ∧ ref.verify v.db ≠ .ok ()) := by
  cases hresolve : v.db.resolveParameter path with
  | error error =>
    have hnone : ∀ ref, ¬v.db.RefersTo path ref := by
      intro ref h
      rw [← Database.resolveParameter_eq_ok_iff, hresolve] at h
      simp at h
    have hanswer : v.getParameter path = .error error := by
      unfold getParameter
      rw [hresolve]
      rfl
    have hcategory := Database.category_of_resolveParameter hresolve
    exact .of_notFound hanswer hcategory (by simp [hnone]) (by simp [hnone]) (by simp [hnone])
  | ok ref =>
    have hrefers := Database.resolveParameter_eq_ok_iff.1 hresolve
    have honly : ∀ other, v.db.RefersTo path other ↔ ref = other := fun other =>
      ⟨hrefers.unique, fun h => h ▸ hrefers⟩
    by_cases hread : v.mayRead ref.parameter
    · have hanswer := getParameter_of_mayRead hrefers hread
      cases hverify : ref.verify v.db with
      | ok _ =>
        rw [hverify] at hanswer
        refine .of_ok hanswer ?_ (by simp [honly, hread]) (by simp [honly, hverify])
        intro other
        rw [honly, and_iff_left_iff_imp]
        intro h
        exact h ▸ ⟨hread, hverify⟩
      | error error =>
        rw [hverify] at hanswer
        refine .of_notFound hanswer (ParameterRef.category_of_verify hverify) ?_
          (by simp [honly, hread]) (by simp [honly, hread, hverify])
        rintro other ⟨hother, -, hok⟩
        rw [← (honly other).1 hother, hverify] at hok
        cases hok
    · have hanswer := getParameter_of_refused hrefers hread
      refine .of_forbidden hanswer rfl ?_ (by simp [honly, hread]) (by simp [honly, hread])
      intro other h
      exact hread ((honly other).1 h.1 ▸ h.2.1)

/-- In a built database a path is answered with the parameter that it refers to just if the user may
read this and the member exists in its type; it is refused just if the user may not read it, and
otherwise nothing is found. The refusal is the same for all paths of the parameter, in all databases.
A path of a container, a command or an algorithm is answered with what it leads to, or refused, and
nothing is found just if it leads nowhere. No path is a bad request. -/
theorem gets_decided {c : CatalogDefinition} (built : Database.build c = .ok v.db) (path : String) :
    IsDecided (v.getParameter path)
      (fun ref => v.db.RefersTo path ref ∧ v.mayRead ref.parameter ∧ ref.Exists v.db)
      (fun error => ∃ ref, v.db.RefersTo path ref ∧ ¬v.mayRead ref.parameter ∧
        .noAccess (.member .parameter) ref.parameter.qualifiedName = error)
      (∀ ref, v.db.RefersTo path ref → v.mayRead ref.parameter ∧ ¬ref.Exists v.db) ∧
    (∀ (w : View) (other : String) (ref ref' : ParameterRef), v.db.RefersTo path ref →
      w.db.RefersTo other ref' → ref.parameter.qualifiedName = ref'.parameter.qualifiedName →
      ¬v.mayRead ref.parameter → ¬w.mayRead ref'.parameter →
      v.getParameter path = w.getParameter other) ∧
    v.Decides .container path (v.getContainer path) ∧
    v.Decides .command path (v.getCommand path) ∧
    v.Decides .algorithm path (v.getAlgorithm path) := by
  have h := Database.holds_of_build built
  refine ⟨?_, ?_, decides_get v .container path, decides_get v .command path,
    decides_get v .algorithm path⟩
  · simpa only [ne_eq, ParameterRef.verify_eq_ok_iff h] using getParameter_decided v path
  · intro w other ref ref' hrefers hrefers' hname hrefused hrefused'
    rw [getParameter_of_refused hrefers hrefused, getParameter_of_refused hrefers' hrefused', hname]

/-- The parameter `P` has a member `b` behind an array `a`, and an alias in another namespace. The
parameter `Q` has no type. -/
def typedCatalog : CatalogDefinition where
  name := "typed"
  version := none
  systems := [{
    head := ⟨"S", none, none, []⟩
    version := none
    parameterTypes := [⟨⟨"T", none, none, []⟩,
      ⟨none, .aggregate [⟨"a", none, .array 1 (.aggregate [⟨"b", none, .boolean⟩])⟩]⟩⟩]
    parameters := [⟨⟨"P", none, none, [⟨"R", some "ops"⟩]⟩, ⟨some "T", none⟩⟩,
      ⟨⟨"Q", none, none, []⟩, ⟨none, none⟩⟩]
    containers := []
    commands := []
    algorithms := []
    systems := [] }]

/-- The catalog as seen by users who may read all of it, or nothing. -/
def typedView (db : Database) (readsCatalog : Bool) : View :=
  ⟨db, ⟨"user", readsCatalog, fun _ _ => false⟩, 100⟩

/-- A member of `P` is shown; one that `P` has not, or any of `Q`, is not found; and those who may
read nothing are told the same of `P` whatever they ask for by its alias. -/
theorem gets_decided_typed : ∃ db, Database.build typedCatalog = .ok db ∧
    (∃ ref, (typedView db true).getParameter "/S/P.a[7].b" = .ok ref ∧
      ref.parameter.qualifiedName = "/S/P" ∧ ref.id = ⟨"P.a[7].b", some "/S"⟩) ∧
    (∀ path ∈ ["/S/P.a[7].c", "/S/P.a.b", "ops/R.b", "/S/Q.a"],
      ∃ e, (typedView db true).getParameter path = .error e ∧ e.category = .notFound) ∧
    ∀ path ∈ ["ops/R.a[7].b", "ops/R.none", "S/P"], (typedView db false).getParameter path =
      .error (.noAccess (.member .parameter) "/S/P") := by
  have hany : (Database.build typedCatalog).toOption.any fun db =>
      (db.resolveParameter "/S/P.a[7].b").toOption.any (fun ref =>
        ref.parameter.qualifiedName = "/S/P" ∧ ref.id = ⟨"P.a[7].b", some "/S"⟩ ∧
          (ref.verify db).isOk) ∧
      (∀ path ∈ ["/S/P.a[7].c", "/S/P.a.b", "ops/R.b", "/S/Q.a"],
        (db.resolveParameter path).toOption.any fun ref => ¬(ref.verify db).isOk) ∧
      ∀ path ∈ ["ops/R.a[7].b", "ops/R.none", "S/P"],
        (db.resolveParameter path).toOption.any (·.parameter.qualifiedName = "/S/P") := by
    decide +kernel
  simp only [Option.any_eq_true, toOption_eq_some_iff, decide_eq_true_eq,
    Database.resolveParameter_eq_ok_iff] at hany
  obtain ⟨db, hb, ⟨ref, hrefers, hname, hid, hverify⟩, hmissing, hrefused⟩ := hany
  have hverifies : ∀ {ref : ParameterRef}, (ref.verify db).isOk ↔ ref.Exists db := by
    intro ref
    rw [← ParameterRef.verify_eq_ok_iff (Database.holds_of_build hb)]
    cases ref.verify db <;> simp [Except.isOk, Except.toBool]
  refine ⟨db, hb, ⟨ref, ?_, hname, hid⟩, fun path hpath => ?_, fun path hpath => ?_⟩
  · obtain ⟨hdecided, -⟩ := gets_decided (v := typedView db true) hb "/S/P.a[7].b"
    exact (hdecided.ok_iff ref).2 ⟨hrefers, rfl, hverifies.1 hverify⟩
  · obtain ⟨hdecided, -⟩ := gets_decided (v := typedView db true) hb path
    obtain ⟨ref, hrefers, hverify⟩ := hmissing path hpath
    refine hdecided.notFound_iff.2 fun other hother => ⟨rfl, fun hexists => hverify ?_⟩
    obtain rfl := hrefers.unique hother
    exact hverifies.2 hexists
  · obtain ⟨hdecided, -⟩ := gets_decided (v := typedView db false) hb path
    obtain ⟨ref, hrefers, hname⟩ := hrefused path hpath
    have hread : ¬(typedView db false).mayRead ref.parameter := Bool.false_ne_true
    exact ((hdecided.forbidden_iff _).2 ⟨ref, hrefers, hread, by rw [hname]⟩).1

end View

end MissionCatalog
