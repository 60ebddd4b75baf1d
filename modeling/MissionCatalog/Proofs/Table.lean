import MissionCatalog.Proofs.Except
import MissionCatalog.Table

/-!
# Tables without conflicts

`insert` succeeds just if no entity of the table has the name or a key of the new one. A table that
was filled by `insert` is `Consistent`: its entities stand under their own names, and the index leads
from a key to the name of the one entity that has it.
-/
namespace MissionCatalog

lemma pairwise_le_mergeSort (l : List String) : l.mergeSort.Pairwise (· ≤ ·) :=
  List.pairwise_mergeSort' (· ≤ ·) l

lemma mergeSort_eq_of_perm {l l' : List String} (h : l.Perm l') : l.mergeSort = l'.mergeSort := by
  refine List.Perm.eq_of_pairwise' (pairwise_le_mergeSort l) (pairwise_le_mergeSort l') ?_
  exact (List.mergeSort_perm l _).trans (h.trans (List.mergeSort_perm l' _).symm)

namespace Directory

variable {α : Type}

lemma get?_empty (name : String) : (empty : Directory α).get? name = none := rfl

def Ascending (d : Directory α) : Prop := d.entries.Pairwise fun a b => a.1 < b.1

lemma putInto_perm {name : String} {a : α} {entries : List (String × α)}
    (h : ∀ entry ∈ entries, entry.1 ≠ name) :
    (putInto name a entries).Perm ((name, a) :: entries) := by
  induction entries with
  | nil => exact .refl _
  | cons entry rest ih =>
    obtain ⟨hne, hrest⟩ := List.forall_mem_cons.1 h
    obtain ⟨other, b⟩ := entry
    simp only [putInto]
    split
    · exact ((ih hrest).cons _).trans (.swap ..)
    · exact .refl _

lemma Ascending.put {d : Directory α} (h : d.Ascending) {name : String} {a : α}
    (hnew : ∀ entry ∈ d.entries, entry.1 ≠ name) : (d.put name a).Ascending := by
  obtain ⟨entries⟩ := d
  change (putInto name a entries).Pairwise _
  change entries.Pairwise _ at h
  induction entries with
  | nil => exact List.pairwise_singleton ..
  | cons entry rest ih =>
    obtain ⟨hne, hrest⟩ := List.forall_mem_cons.1 hnew
    obtain ⟨hfirst, hp⟩ := List.pairwise_cons.1 h
    obtain ⟨other, b⟩ := entry
    simp only [putInto, hne, if_false]
    split
    · next hlt =>
      refine List.pairwise_cons.2 ⟨fun x hx => ?_, ih hrest hp⟩
      rcases List.mem_cons.1 ((putInto_perm hrest).mem_iff.1 hx) with rfl | hx
      · exact hlt
      · exact hfirst x hx
    · next hlt =>
      have hbefore : name < other := lt_of_le_of_ne (not_lt.1 hlt) (Ne.symm hne)
      refine List.pairwise_cons.2 ⟨fun x hx => ?_, h⟩
      rcases List.mem_cons.1 hx with rfl | hx
      · exact hbefore
      · exact hbefore.trans (hfirst x hx)

lemma Ascending.get?_eq_some_iff {d : Directory α} (h : d.Ascending) {name : String} {a : α} :
    d.get? name = some a ↔ (name, a) ∈ d.entries := by
  obtain ⟨entries⟩ := d
  change entries.lookup name = some a ↔ (name, a) ∈ entries
  change entries.Pairwise _ at h
  induction entries with
  | nil => simp
  | cons entry rest ih =>
    obtain ⟨hfirst, hp⟩ := List.pairwise_cons.1 h
    obtain ⟨other, b⟩ := entry
    rw [lookup_cons_eq, List.mem_cons]
    split
    · next heq =>
      subst heq
      have hrest : (name, a) ∉ rest := fun hm => (hfirst _ hm).false
      simp [hrest, eq_comm]
    · next hne =>
      rw [ih hp]
      simp [hne]

end Directory

namespace KeyIndex

lemma get?_put (index : KeyIndex) (key : Key) (owner : String) (other : Key) :
    (index.put key owner).get? other = if other = key then some owner else index.get? other := by
  obtain ⟨space, name⟩ := key
  obtain ⟨space', name'⟩ := other
  simp only [get?, put, Directory.get?_put, Key.mk.injEq]
  by_cases hs : space' = space
  · subst hs
    cases index.spaces.get? space' <;> simp [Directory.get?_put, Directory.get?_empty]
  · simp [hs]

lemma claim_eq_ok {kind : Kind} {owner : String} {index index' : KeyIndex} {key : Key} :
    index.claim kind owner key = .ok index' ↔
      (∀ other, index.get? key = some other → other = owner) ∧ index' = index.put key owner := by
  rw [claim]
  cases index.get? key with
  | none => simp [eq_comm]
  | some other =>
    by_cases h : other = owner
    · simp [h, eq_comm]
    · simp [h]

/-- An entity can claim keys that nobody else has. -/
lemma foldlM_claim_eq_ok {kind : Kind} {owner : String} {keys : List Key}
    {index index' : KeyIndex} : keys.foldlM (claim kind owner) index = .ok index' ↔
      (∀ key ∈ keys, ∀ other, index.get? key = some other → other = owner) ∧
        index' = keys.foldl (·.put · owner) index := by
  induction keys generalizing index with
  | nil => simp [pure, Except.pure, eq_comm]
  | cons key keys ih =>
    rw [List.foldlM_cons, bind_eq_ok, List.forall_mem_cons, List.foldl_cons]
    simp only [claim_eq_ok, ih]
    constructor
    · rintro ⟨_, ⟨hkey, rfl⟩, hkeys, rfl⟩
      refine ⟨⟨hkey, fun k hk other hother => ?_⟩, rfl⟩
      by_cases heq : k = key
      · exact hkey other (heq ▸ hother)
      · exact hkeys k hk other (by rwa [get?_put, if_neg heq])
    · rintro ⟨⟨hkey, hkeys⟩, rfl⟩
      refine ⟨_, ⟨hkey, rfl⟩, fun k hk other hother => ?_, rfl⟩
      rw [get?_put] at hother
      split at hother
      · exact (Option.some.inj hother).symm
      · exact hkeys k hk other hother

lemma get?_foldl_put (owner : String) (keys : List Key) (index : KeyIndex) (key : Key) :
    (keys.foldl (·.put · owner) index).get? key =
      if key ∈ keys then some owner else index.get? key := by
  induction keys generalizing index with
  | nil => simp
  | cons k keys ih =>
    rw [List.foldl_cons, ih, get?_put]
    by_cases hk : key ∈ keys <;> simp [hk]

end KeyIndex

namespace Table

variable {α : Type} [Declared α]

/-- The entities have their name or a key in common. -/
def Conflict (a b : α) : Prop :=
  Declared.qualifiedName a = Declared.qualifiedName b ∨
    ∃ key ∈ Declared.keys a, key ∈ Declared.keys b

instance (a b : α) : Decidable (Conflict a b) := inferInstanceAs (Decidable (_ ∨ _))

lemma Conflict.symm {a b : α} (h : Conflict a b) : Conflict b a :=
  h.imp Eq.symm fun ⟨key, ha, hb⟩ => ⟨key, hb, ha⟩

instance : Std.Symm fun a b : α => ¬Conflict a b where
  symm _ _ hab hba := hab hba.symm

/-- No two of the entities are in conflict. -/
def Distinct (es : List α) : Prop := es.Pairwise fun a b => ¬Conflict a b

instance (es : List α) : Decidable (Distinct es) := inferInstanceAs (Decidable (es.Pairwise _))

lemma Distinct.perm {es es' : List α} (h : Distinct es) (hp : es.Perm es') : Distinct es' :=
  List.Pairwise.perm h hp fun hab hba => hab hba.symm

lemma Distinct.nodup_names {es : List α} (h : Distinct es) :
    (es.map Declared.qualifiedName).Nodup :=
  List.pairwise_map.2 (List.Pairwise.imp (fun hab hname => hab (.inl hname)) h)

lemma Distinct.eq_of_conflict {es : List α} (h : Distinct es) {a b : α} (ha : a ∈ es)
    (hb : b ∈ es) (hab : Conflict a b) : a = b := by
  by_contra hne
  exact List.Pairwise.forall h ha hb hne hab

lemma distinct_iff {es : List α} : Distinct es ↔ (es.map Declared.qualifiedName).Nodup ∧
    ∀ a ∈ es, ∀ b ∈ es, ∀ key ∈ Declared.keys a, key ∈ Declared.keys b →
      Declared.qualifiedName a = Declared.qualifiedName b := by
  constructor
  · intro h
    refine ⟨h.nodup_names, fun a ha b hb key hka hkb => ?_⟩
    rw [h.eq_of_conflict ha hb (.inr ⟨key, hka, hkb⟩)]
  · rintro ⟨hn, hk⟩
    refine List.Pairwise.imp_of_mem ?_ (List.pairwise_map.1 hn)
    rintro a b ha hb hne (hname | ⟨key, hka, hkb⟩)
    · exact hne hname
    · exact hne (hk a ha b hb key hka hkb)

/-- The entities stand under their own names, and the index leads from a key to the name of the
entity that has it. -/
structure Consistent (t : Table α) : Prop where
  ascending : t.byName.Ascending
  named : ∀ entry ∈ t.byName.entries, entry.1 = Declared.qualifiedName entry.2
  indexed : ∀ key name, t.byKey.get? key = some name ↔
    ∃ e ∈ t.sorted, key ∈ Declared.keys e ∧ Declared.qualifiedName e = name

lemma consistent_empty : (empty : Table α).Consistent where
  ascending := .nil
  named := by simp [empty, Directory.empty]
  indexed := by
    simp [empty, sorted, KeyIndex.empty, KeyIndex.get?, Directory.empty, Directory.get?,
      Directory.values]

namespace Consistent

variable {t u : Table α}

lemma mem_entries_iff (h : t.Consistent) {name : String} {e : α} :
    (name, e) ∈ t.byName.entries ↔ e ∈ t.sorted ∧ Declared.qualifiedName e = name := by
  constructor
  · exact fun he => ⟨List.mem_map_of_mem he, (h.named _ he).symm⟩
  · rintro ⟨he, rfl⟩
    obtain ⟨entry, hentry, rfl⟩ := List.mem_map.1 he
    rwa [← h.named _ hentry]

lemma get?_eq_some_iff (h : t.Consistent) {name : String} {e : α} :
    t.get? name = some e ↔ e ∈ t.sorted ∧ Declared.qualifiedName e = name := by
  rw [get?, h.ascending.get?_eq_some_iff, h.mem_entries_iff]

lemma contains_iff (h : t.Consistent) {name : String} :
    t.contains name ↔ ∃ e ∈ t.sorted, Declared.qualifiedName e = name := by
  rw [contains, Option.isSome_iff_exists]
  simp only [h.get?_eq_some_iff]

lemma eq_of_name (h : t.Consistent) {a b : α} (ha : a ∈ t.sorted) (hb : b ∈ t.sorted)
    (hname : Declared.qualifiedName a = Declared.qualifiedName b) : a = b :=
  Option.some.inj ((h.get?_eq_some_iff.2 ⟨ha, hname⟩).symm.trans (h.get?_eq_some_iff.2 ⟨hb, rfl⟩))

lemma getByKey?_eq_some_iff (h : t.Consistent) {key : Key} {e : α} :
    t.getByKey? key = some e ↔ e ∈ t.sorted ∧ key ∈ Declared.keys e := by
  rw [getByKey?, Option.bind_eq_some_iff]
  constructor
  · rintro ⟨name, hname, hget⟩
    obtain ⟨he, rfl⟩ := h.get?_eq_some_iff.1 hget
    obtain ⟨a, ha, hkey, heq⟩ := (h.indexed key _).1 hname
    exact ⟨he, h.eq_of_name ha he heq ▸ hkey⟩
  · rintro ⟨he, hkey⟩
    exact ⟨_, (h.indexed key _).2 ⟨e, he, hkey, rfl⟩, h.get?_eq_some_iff.2 ⟨he, rfl⟩⟩

lemma getByKey?_eq_none_iff (h : t.Consistent) {key : Key} :
    t.getByKey? key = none ↔ ∀ e ∈ t.sorted, key ∉ Declared.keys e := by
  simp [Option.eq_none_iff_forall_ne_some, h.getByKey?_eq_some_iff]

lemma eq_of_conflict (h : t.Consistent) {a b : α} (ha : a ∈ t.sorted) (hb : b ∈ t.sorted)
    (hab : Conflict a b) : a = b := by
  rcases hab with hname | ⟨key, hka, hkb⟩
  · exact h.eq_of_name ha hb hname
  · have hget := h.getByKey?_eq_some_iff.2 ⟨ha, hka⟩
    exact Option.some.inj (hget.symm.trans (h.getByKey?_eq_some_iff.2 ⟨hb, hkb⟩))

lemma increasing_sorted (h : t.Consistent) :
    t.sorted.Pairwise fun a b => Declared.qualifiedName a < Declared.qualifiedName b := by
  refine List.pairwise_map.2 (List.Pairwise.imp_of_mem ?_ h.ascending)
  intro a b ha hb hab
  rwa [h.named a ha, h.named b hb] at hab

lemma nodup_names (h : t.Consistent) : (t.sorted.map Declared.qualifiedName).Nodup :=
  List.pairwise_map.2 (h.increasing_sorted.imp fun hab => hab.ne)

lemma distinct_sorted (h : t.Consistent) : Distinct t.sorted :=
  (List.pairwise_map.1 h.nodup_names).imp_of_mem fun ha hb hne hab =>
    hne (congrArg _ (h.eq_of_conflict ha hb hab))

lemma sorted_perm (ht : t.Consistent) (hu : u.Consistent) (h : ∀ e, e ∈ t.sorted ↔ e ∈ u.sorted) :
    t.sorted.Perm u.sorted :=
  (List.perm_ext_iff_of_nodup (.of_map _ ht.nodup_names) (.of_map _ hu.nodup_names)).2 h

lemma sorted_eq (ht : t.Consistent) (hu : u.Consistent) (h : ∀ e, e ∈ t.sorted ↔ e ∈ u.sorted) :
    t.sorted = u.sorted :=
  (ht.sorted_perm hu h).eq_of_pairwise (fun _ _ _ _ hab hba => absurd hba hab.asymm)
    ht.increasing_sorted hu.increasing_sorted

lemma get?_eq (ht : t.Consistent) (hu : u.Consistent) (h : ∀ e, e ∈ t.sorted ↔ e ∈ u.sorted) :
    t.get? = u.get? := by
  funext name
  ext e
  rw [ht.get?_eq_some_iff, hu.get?_eq_some_iff, h]

lemma getByKey?_eq (ht : t.Consistent) (hu : u.Consistent)
    (h : ∀ e, e ∈ t.sorted ↔ e ∈ u.sorted) : t.getByKey? = u.getByKey? := by
  funext key
  ext e
  rw [ht.getByKey?_eq_some_iff, hu.getByKey?_eq_some_iff, h]

end Consistent

/-- The table with the entity in it, and the index leading from all its keys to it. -/
def put (t : Table α) (e : α) : Table α where
  byName := t.byName.put (Declared.qualifiedName e) e
  byKey := (Declared.keys e).foldl (·.put · (Declared.qualifiedName e)) t.byKey

def ofList (es : List α) : Table α := es.foldl put empty

section Insert

variable {t t' : Table α} {e : α} {es : List α}

/-- The index lets an entity claim its keys just if no other entity has one of them. -/
lemma Consistent.claimable_iff (h : t.Consistent) (hname : ∀ a ∈ t.sorted,
    Declared.qualifiedName a ≠ Declared.qualifiedName e) :
    (∀ key ∈ Declared.keys e, ∀ other, t.byKey.get? key = some other →
      other = Declared.qualifiedName e) ↔ ∀ a ∈ t.sorted, ¬Conflict a e := by
  constructor
  · rintro hkeys a ha (hae | ⟨key, hka, hke⟩)
    · exact hname a ha hae
    · exact hname a ha (hkeys key hke _ ((h.indexed key _).2 ⟨a, ha, hka, rfl⟩))
  · intro hfree key hke other hother
    obtain ⟨a, ha, hka, -⟩ := (h.indexed key other).1 hother
    exact absurd (.inr ⟨key, hka, hke⟩) (hfree a ha)

lemma Consistent.insert_eq_ok (h : t.Consistent) :
    t.insert e = .ok t' ↔ (∀ a ∈ t.sorted, ¬Conflict a e) ∧ t' = t.put e := by
  simp only [insert]
  split
  · next hc =>
    obtain ⟨a, ha, hae⟩ := h.contains_iff.1 hc
    simp only [reduceCtorEq, false_iff, not_and]
    exact fun hfree => absurd (.inl hae) (hfree a ha)
  · next hc =>
    have hname : ∀ a ∈ t.sorted, Declared.qualifiedName a ≠ Declared.qualifiedName e :=
      fun a ha hae => hc (h.contains_iff.2 ⟨a, ha, hae⟩)
    simp only [map_eq_ok, KeyIndex.foldlM_claim_eq_ok, h.claimable_iff hname]
    constructor
    · rintro ⟨_, ⟨hfree, rfl⟩, rfl⟩
      exact ⟨hfree, rfl⟩
    · rintro ⟨hfree, rfl⟩
      exact ⟨_, ⟨hfree, rfl⟩, rfl⟩

lemma Consistent.entries_ne (h : t.Consistent) (hfree : ∀ a ∈ t.sorted, ¬Conflict a e) :
    ∀ entry ∈ t.byName.entries, entry.1 ≠ Declared.qualifiedName e := by
  intro entry hentry hname
  exact hfree entry.2 (List.mem_map_of_mem hentry) (.inl ((h.named _ hentry).symm.trans hname))

lemma Consistent.sorted_put (h : t.Consistent) (hfree : ∀ a ∈ t.sorted, ¬Conflict a e) :
    (t.put e).sorted.Perm (t.sorted ++ [e]) := by
  have hperm : (t.put e).sorted.Perm (e :: t.sorted) :=
    (Directory.putInto_perm (h.entries_ne hfree)).map Prod.snd
  exact hperm.trans (List.perm_append_singleton e t.sorted).symm

/-- The index stays exact: the new entity's keys lead to it, and all other keys lead where they led. -/
lemma Consistent.put (h : t.Consistent) (hfree : ∀ a ∈ t.sorted, ¬Conflict a e) :
    (t.put e).Consistent where
  ascending := h.ascending.put (h.entries_ne hfree)
  named entry hentry := by
    rcases List.mem_cons.1 ((Directory.putInto_perm (h.entries_ne hfree)).mem_iff.1 hentry) with
      rfl | hentry
    · rfl
    · exact h.named entry hentry
  indexed key name := by
    have hindex : (t.put e).byKey.get? key = if key ∈ Declared.keys e then
        some (Declared.qualifiedName e) else t.byKey.get? key := KeyIndex.get?_foldl_put ..
    simp only [hindex, (h.sorted_put hfree).mem_iff, List.mem_append, List.mem_singleton]
    split
    · next hkey =>
      simp only [Option.some.injEq]
      constructor
      · rintro rfl
        exact ⟨e, .inr rfl, hkey, rfl⟩
      · rintro ⟨a, ha | rfl, hka, rfl⟩
        · exact absurd (.inr ⟨key, hka, hkey⟩) (hfree a ha)
        · rfl
    · next hkey =>
      rw [h.indexed]
      constructor
      · rintro ⟨a, ha, hka, rfl⟩
        exact ⟨a, .inl ha, hka, rfl⟩
      · rintro ⟨a, ha | rfl, hka, rfl⟩
        · exact ⟨a, ha, hka, rfl⟩
        · exact absurd hka hkey

/-- A table that is filled one by one holds what it was filled with, and stays consistent. -/
lemma Consistent.foldlM_insert (h : t.Consistent) (hf : es.foldlM insert t = .ok t') :
    t'.Consistent ∧ t'.sorted.Perm (t.sorted ++ es) ∧ t' = es.foldl Table.put t := by
  induction es generalizing t with
  | nil =>
    obtain rfl : t = t' := by simpa [pure, Except.pure] using hf
    exact ⟨h, by simp, rfl⟩
  | cons e es ih =>
    rw [List.foldlM_cons] at hf
    obtain ⟨t₁, h₁, h₂⟩ := bind_eq_ok.1 hf
    obtain ⟨hfree, rfl⟩ := h.insert_eq_ok.1 h₁
    obtain ⟨hc, hrows, heq⟩ := ih (h.put hfree) h₂
    refine ⟨hc, hrows.trans ?_, heq⟩
    simpa using (h.sorted_put hfree).append_right es

lemma Consistent.exists_foldlM_insert (h : t.Consistent) (hd : Distinct (t.sorted ++ es)) :
    ∃ t', es.foldlM insert t = .ok t' := by
  induction es generalizing t with
  | nil => exact ⟨t, rfl⟩
  | cons e es ih =>
    obtain ⟨-, -, hcross⟩ := List.pairwise_append.1 hd
    have hfree : ∀ a ∈ t.sorted, ¬Conflict a e := fun a ha => hcross a ha e List.mem_cons_self
    have hperm : (t.sorted ++ e :: es).Perm ((t.put e).sorted ++ es) := by
      simpa using ((h.sorted_put hfree).append_right es).symm
    obtain ⟨t', ht'⟩ := ih (h.put hfree) (hd.perm hperm)
    refine ⟨t', ?_⟩
    rw [List.foldlM_cons]
    exact bind_eq_ok.2 ⟨_, h.insert_eq_ok.2 ⟨hfree, rfl⟩, ht'⟩

end Insert

end Table

end MissionCatalog
