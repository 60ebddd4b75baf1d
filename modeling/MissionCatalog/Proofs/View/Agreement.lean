import MissionCatalog.Proofs.Resolve.Parameter
import MissionCatalog.Proofs.View.Batch

/-!
# Batches and paths

A path is looked up under its namespace with a slash in front and then as it is written, an id of a
batch only as it is written. So the id that is made of the parts of a path need not name what the path
leads to.
-/
namespace MissionCatalog
open Name

lemma Name.SplitsInto.eq_of_append {ns name space segment : String}
    (h : SplitsInto (space ++ "/" ++ segment) ns name) (hslash : '/' ∉ segment.toList) :
    ns = space ∧ name = segment := by
  have hpath : ns.toList ++ '/' :: name.toList = space.toList ++ '/' :: segment.toList := by
    simpa using congrArg String.toList h.path_eq.symm
  have hcut := congrArg (Text.splitLast '/') hpath
  rw [Text.splitLast_append h.noSlash, Text.splitLast_append hslash] at hcut
  simpa [String.toList_inj] using hcut

namespace View

variable {v : View} {c : CatalogDefinition} {ns name : String} {ref : ParameterRef}

/-- Without a member in its last segment, a path leads to what is found under its two parts. -/
lemma foundUnder_of_getParameter (built : Database.build c = .ok v.db)
    (noSlash : '/' ∉ name.toList) (plain : IsPlain name)
    (got : v.getParameter (ns ++ "/" ++ name) = .ok ref) :
    name ≠ "" ∧ v.mayRead ref.parameter ∧ ref.path = none ∧ ∃ key,
      (v.db.table .parameter).FoundUnder Entity.IsDeclaredUnder ns name ref.parameter key := by
  obtain ⟨refers, hread, -⟩ := ((getParameter_decided v _).ok_iff ref).1 got
  obtain ⟨asks, resolved⟩ := refers
  have hpath : ns ++ "/" ++ name = String.ofList (ns.toList ++ '/' :: name.toList) := by
    rw [← String.toList_inj]
    simp
  have hlast : lastSegment (ns ++ "/" ++ name) = name := by
    rw [hpath, lastSegment_append_of_not_mem noSlash, String.ofList_toList]
  -- The last segment is plain, so the whole path is that of an entity.
  obtain ⟨hmember, rfl⟩ := Database.asksFor_iff.1 asks
  rw [memberPathOf_eq_none_iff.2 (hlast.symm ▸ plain), Except.ok.injEq] at hmember
  rw [splitSuffix_fst_of_isPlain (hlast.symm ▸ plain)] at resolved
  obtain ⟨space, segment, hparts, -, hfound⟩ := Table.resolve_eq_ok_iff.1 resolved
  have hne := hparts.ne_empty
  obtain ⟨rfl, rfl⟩ := hparts.eq_of_append noSlash
  have hdistinct := (Database.holds_of_build built).consistent .parameter
  obtain ⟨key, hunder, -⟩ :=
    (hdistinct.lookup?_eq_some_iff (Database.Holds.keyedBy_table _)).1 hfound
  exact ⟨hne, hread, hmember.symm, key, hunder⟩

lemma batch_one_of_names (built : Database.build c = .ok v.db) {id : ObjectId} {p : Parameter}
    (h : v.db.Names id p) : v.batch [id] = .ok (if v.mayRead p then [⟨id, p⟩] else []) := by
  rw [batch_cons, (parameterOf_eq_ok_iff built).2 h]
  rfl

lemma batch_one_eq_error_iff (built : Database.build c = .ok v.db) {id : ObjectId}
    (hname : id.name ≠ "") : v.batch [id] = .error (.unknownId id) ↔
      ∀ p ∈ (v.db.table .parameter).sorted, ¬p.IsDeclaredFor id := by
  have hone : v.batch [id] = .error (.unknownId id) ↔
      v.parameterOf id = .error (.unknownId id) := by
    rw [batch_cons, bind_eq_error]
    simp [batch_nil, map_eq_error]
  rw [hone, parameterOf_eq_error_iff built, badIdError, if_neg hname, and_iff_left rfl,
    Database.IsBadId, or_iff_right hname]

lemma batch_one_eq_ok_iff (built : Database.build c = .ok v.db) {id : ObjectId} {p : Parameter}
    (hread : v.mayRead p) : v.batch [id] = .ok [⟨id, p⟩] ↔ v.db.Names id p := by
  constructor
  · intro h
    cases (batch_eq_ok_iff built).1 h with
    | shown names access rest => exact names
    | hidden names access rest => cases rest
  · intro h
    rw [batch_one_of_names built h, if_pos hread]

/-- For those who get a parameter `ref` by a path, a batch with the two parts of the path as an id
answers with the same one just if this is declared under the namespace as it is written. Otherwise it
answers with the parameter that is, or with nothing if that may not be read, and if there is none the id
is unknown. Asked under the namespace with a slash in front, and as it is written when that is unknown,
batches always answer as the path does. -/
theorem batch_follows_path_iff (built : Database.build c = .ok v.db)
    (noSlash : '/' ∉ name.toList) (plain : IsPlain name)
    (got : v.getParameter (ns ++ "/" ++ name) = .ok ref) :
    ref.path = none ∧
    (v.batch [⟨name, some ns⟩] = .ok [⟨⟨name, some ns⟩, ref.parameter⟩] ↔
      ref.parameter.IsDeclaredUnder ⟨ns, name⟩) ∧
    (∀ q ∈ (v.db.table .parameter).sorted, q.IsDeclaredUnder ⟨ns, name⟩ →
      v.batch [⟨name, some ns⟩] = .ok (if v.mayRead q then [⟨⟨name, some ns⟩, q⟩] else [])) ∧
    (v.batch [⟨name, some ns⟩] = .error (.unknownId ⟨name, some ns⟩) ↔
      ∀ q ∈ (v.db.table .parameter).sorted, ¬q.IsDeclaredUnder ⟨ns, name⟩) ∧
    (v.batch [⟨name, some ("/" ++ ns)⟩] = .ok [⟨⟨name, some ("/" ++ ns)⟩, ref.parameter⟩] ∨
      v.batch [⟨name, some ("/" ++ ns)⟩] = .error (.unknownId ⟨name, some ("/" ++ ns)⟩) ∧
      v.batch [⟨name, some ns⟩] = .ok [⟨⟨name, some ns⟩, ref.parameter⟩]) := by
  obtain ⟨hname, hread, hpath, key, hunder⟩ := foundUnder_of_getParameter built noSlash plain got
  have hmem : ref.parameter ∈ (v.db.table .parameter).sorted := by
    cases hunder with
    | slashed mem own => exact mem
    | asWritten free mem own => exact mem
  refine ⟨hpath, ?_, ?_, batch_one_eq_error_iff built hname, ?_⟩
  · rw [batch_one_eq_ok_iff built hread, Database.Names, and_iff_right hname, and_iff_right hmem]
    rfl
  · intro q hq hdeclared
    exact batch_one_of_names built ⟨hname, hq, hdeclared⟩
  · cases hunder with
    | slashed mem own => exact .inl ((batch_one_eq_ok_iff built hread).2 ⟨hname, mem, own⟩)
    | asWritten free mem own =>
      exact .inr ⟨(batch_one_eq_error_iff built hname).2 free,
        (batch_one_eq_ok_iff built hread).2 ⟨hname, mem, own⟩⟩

/-- The path `S/P` leads to `P`, which no batch finds under `S`. The path `/S/P` leads to `Q`, by the
alias, and a batch finds `P` there. -/
theorem batch_follows_path_awkward : ∃ db, Database.build awkwardCatalog = .ok db ∧
    ∃ p q, p.qualifiedName = "/S/P" ∧ q.qualifiedName = "/S/Q" ∧
      (dottedView db).getParameter "S/P" = .ok ⟨p, ⟨"P", some "/S"⟩, none⟩ ∧
      (dottedView db).batch [⟨"P", some "S"⟩] = .error (.unknownId ⟨"P", some "S"⟩) ∧
      (dottedView db).getParameter "/S/P" = .ok ⟨q, ⟨"P", some "//S"⟩, none⟩ ∧
      (dottedView db).batch [⟨"P", some "/S"⟩] = .ok [⟨⟨"P", some "/S"⟩, p⟩] := by
  obtain ⟨db, hb⟩ := exists_build_awkwardCatalog
  have hbuilt : Database.build awkwardCatalog = .ok (dottedView db).db := hb
  have ht := (Database.holds_of_build hb).table_eq .parameter
  have hresolved : (db.resolve .parameter "S/P").map (fun r => (r.entity.qualifiedName, r.id)) =
      .ok ("/S/P", ⟨"P", some "/S"⟩) ∧
      (db.resolve .parameter "/S/P").map (fun r => (r.entity.qualifiedName, r.id)) =
        .ok ("/S/Q", ⟨"P", some "//S"⟩) := by
    rw [Database.resolve, Database.resolve, ht]
    decide +kernel
  have hfree : ∀ q ∈ (db.table .parameter).sorted, ⟨"S", "P"⟩ ∉ Declared.keys q := by
    rw [ht]
    decide +kernel
  have hplain : IsPlain (lastSegment "S/P") ∧ IsPlain (lastSegment "/S/P") := by decide +kernel
  obtain ⟨⟨p, id⟩, hp, heq⟩ := map_eq_ok.1 hresolved.1
  obtain ⟨hpname, rfl⟩ := Prod.mk.inj heq
  obtain ⟨⟨q, id⟩, hq, heq⟩ := map_eq_ok.1 hresolved.2
  obtain ⟨hqname, rfl⟩ := Prod.mk.inj heq
  have hgetp := (getParameter_whole_iff (v := dottedView db)).2 ⟨rfl, hp, hplain.1⟩
  have hgetq := (getParameter_whole_iff (v := dottedView db)).2 ⟨rfl, hq, hplain.2⟩
  have hgot : (dottedView db).getParameter ("S" ++ "/" ++ "P") = .ok ⟨p, ⟨"P", some "/S"⟩, none⟩ :=
    hgetp
  obtain ⟨-, -, -, hunknown, hslashed⟩ :=
    batch_follows_path_iff hbuilt (by decide) (by decide) hgot
  have hfails := hunknown.2 fun q hq hdeclared => hfree q hq (Entity.mem_keys.2 hdeclared)
  refine ⟨db, hb, p, q, hpname, hqname, hgetp, hfails, hgetq, ?_⟩
  refine hslashed.resolve_right ?_
  rintro ⟨-, hanswered⟩
  rw [hfails] at hanswered
  simp at hanswered

end View

end MissionCatalog
