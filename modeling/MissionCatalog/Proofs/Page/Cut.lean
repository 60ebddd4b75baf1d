import MissionCatalog.Page
import MissionCatalog.Proofs.Except
import MissionCatalog.Proofs.PageKey

/-!
# One page of a listing

A page asked for with a token holds the first items behind the key in the token. `build_after` says
so for the sorted list, and `cut_cases` when the page ends the listing and when it carries a token.
-/
namespace MissionCatalog.Page

variable {α : Type} {key : α → PageKey}

def behind (key : α → PageKey) (after : Option PageKey) (items : List α) : List α :=
  items.filter fun a => after.all fun k => !(key a).le k

@[simp] lemma behind_none (items : List α) : behind key none items = items := by simp [behind]

@[simp] lemma mem_behind {after : Option PageKey} {items : List α} {a : α} :
    a ∈ behind key after items ↔ a ∈ items ∧ ∀ k ∈ after, k.Before (key a) := by
  cases after <;> simp [behind, PageKey.le_eq_false_iff]

lemma behind_sublist (key : α → PageKey) (after : Option PageKey) (items : List α) :
    (behind key after items).Sublist items := List.filter_sublist

def Sorted (key : α → PageKey) (items : List α) : Prop :=
  items.Pairwise fun a b => (key a).rank ≤ (key b).rank

lemma sort_perm (key : α → PageKey) (items : List α) : (sort key items).Perm items :=
  List.mergeSort_perm items _

lemma nodup_map_sort {items : List α} : ((sort key items).map key).Nodup ↔ (items.map key).Nodup :=
  ((sort_perm key items).map key).nodup_iff

@[simp] lemma mem_sort {items : List α} {a : α} : a ∈ sort key items ↔ a ∈ items :=
  List.mem_mergeSort

@[simp] lemma length_sort (items : List α) : (sort key items).length = items.length :=
  List.length_mergeSort items

lemma key_le_trans (key : α → PageKey) (a b c : α) :
    (key a).le (key b) → (key b).le (key c) → (key a).le (key c) := by
  simpa only [PageKey.le_iff] using le_trans

lemma key_le_total (key : α → PageKey) (a b : α) : (key a).le (key b) || (key b).le (key a) := by
  simpa only [Bool.or_eq_true, PageKey.le_iff] using le_total (key a).rank (key b).rank

lemma sorted_sort (items : List α) : Sorted key (sort key items) := by
  have h : (sort key items).Pairwise fun a b => (key a).le (key b) = true :=
    List.pairwise_mergeSort (key_le_trans key) (key_le_total key) items
  exact h.imp fun hab => (PageKey.le_iff _ _).1 hab

lemma Sorted.sublist {l l' : List α} (h : Sorted key l) (hl : l'.Sublist l) : Sorted key l' :=
  List.Pairwise.sublist hl h

/-- Passing over the keys up to `k` at the front of a sorted list passes over all of them. -/
lemma Sorted.dropWhile_le {l : List α} (h : Sorted key l) (k : PageKey) :
    l.dropWhile (fun a => (key a).le k) = behind key (some k) l := by
  induction l with
  | nil => rfl
  | cons a l ih =>
    have hl := List.pairwise_cons.1 h
    by_cases ha : (key a).le k
    · rw [List.dropWhile_cons, if_pos ha, ih hl.2]
      simp [behind, ha]
    · have hka : k.Before (key a) := (PageKey.le_eq_false_iff _ _).1 (by simpa using ha)
      rw [List.dropWhile_cons, if_neg ha]
      refine (List.filter_eq_self.2 fun b hb => ?_).symm
      rw [PageKey.before_iff] at hka
      have hkb : k.rank < (key b).rank := by
        rcases List.mem_cons.1 hb with rfl | hb
        · exact hka
        · exact hka.trans_le (hl.1 b hb)
      simpa [PageKey.le_eq_false_iff, PageKey.before_iff] using hkb

/-- The keys increase strictly. -/
def Increasing (key : α → PageKey) (items : List α) : Prop :=
  items.Pairwise fun a b => (key a).Before (key b)

lemma Increasing.sorted {l : List α} (h : Increasing key l) : Sorted key l :=
  h.imp fun hab => ((PageKey.before_iff _ _).1 hab).le

lemma Increasing.nodup {l : List α} (h : Increasing key l) : (l.map key).Nodup :=
  List.pairwise_map.2 (h.imp fun hab => hab.ne)

lemma Sorted.increasing {l : List α} (h : Sorted key l) (hd : (l.map key).Nodup) :
    Increasing key l := by
  rw [List.Nodup, List.pairwise_map] at hd
  exact (h.and hd).imp fun ⟨hle, hne⟩ =>
    (PageKey.before_iff _ _).2 (lt_of_le_of_ne hle fun he => hne (PageKey.rank_injective he))

lemma Sorted.sort_eq {l : List α} (h : Sorted key l) : sort key l = l :=
  List.mergeSort_of_pairwise (h.imp fun hab => (PageKey.le_iff _ _).2 hab)

lemma Sorted.map_key_eq {l : List α} (h : Sorted key l) {keys : List PageKey}
    (hk : keys.Pairwise fun a b => a.le b) (hp : (l.map key).Perm keys) : l.map key = keys := by
  have hl : (l.map key).Pairwise fun a b => a.rank ≤ b.rank := List.pairwise_map.2 h
  refine hp.eq_of_pairwise (fun a b _ _ hab hba => ?_) hl (hk.imp (PageKey.le_iff _ _).1)
  exact PageKey.rank_injective (hab.antisymm hba)

/-- An item is put behind those that are to stand before it, and before the others. -/
lemma exists_sort_cons (key : α → PageKey) (a : α) (items : List α) : ∃ before after,
    sort key (a :: items) = before ++ a :: after ∧ sort key items = before ++ after ∧
      (∀ b ∈ before, ¬(key a).le (key b)) ∧ ∀ b ∈ after, (key a).le (key b) := by
  obtain ⟨before, after, hsort, hrest, hbefore⟩ :=
    List.mergeSort_cons (key_le_trans key) (key_le_total key) a items
  have hsorted := List.pairwise_mergeSort (key_le_trans key) (key_le_total key) (a :: items)
  rw [hsort, List.pairwise_append, List.pairwise_cons] at hsorted
  exact ⟨before, after, hsort, hrest, by simpa using hbefore, hsorted.2.1.1⟩

/-- A list falls apart in one way into items without a property and items with it. -/
lemma append_inj_of_forall {p : α → Bool} {l₁ l₂ m₁ m₂ : List α} (h : l₁ ++ l₂ = m₁ ++ m₂)
    (hl₁ : ∀ a ∈ l₁, ¬p a) (hl₂ : ∀ a ∈ l₂, p a) (hm₁ : ∀ a ∈ m₁, ¬p a) (hm₂ : ∀ a ∈ m₂, p a) :
    l₁ = m₁ ∧ l₂ = m₂ := by
  have hafter := congrArg (List.filter p) h
  rw [List.filter_append, List.filter_append, List.filter_eq_nil_iff.2 hl₁,
    List.filter_eq_nil_iff.2 hm₁, List.filter_eq_self.2 hl₂, List.filter_eq_self.2 hm₂] at hafter
  obtain rfl : l₂ = m₂ := hafter
  exact ⟨List.append_cancel_right h, rfl⟩

/-- Sorting is stable, so items may be left out before it or after. Items can share a key, so it is
not enough that both lists are sorted and have the same items. -/
theorem sort_filter (may : α → Bool) (items : List α) :
    sort key (items.filter may) = (sort key items).filter may := by
  induction items with
  | nil => simp [sort]
  | cons a items ih =>
    obtain ⟨before, after, hsort, hrest, hbefore, hafter⟩ := exists_sort_cons key a items
    rw [hrest, List.filter_append] at ih
    rw [hsort, List.filter_append]
    by_cases ha : may a
    -- The item cuts the sorted rest in two, and it cuts what is left of this at the same place.
    · obtain ⟨before', after', hsort', hrest', hbefore', hafter'⟩ :=
        exists_sort_cons key a (items.filter may)
      obtain ⟨rfl, rfl⟩ := append_inj_of_forall (hrest'.symm.trans ih) hbefore' hafter'
        (fun b hb => hbefore b (List.mem_of_mem_filter hb))
        (fun b hb => hafter b (List.mem_of_mem_filter hb))
      rw [List.filter_cons_of_pos ha, List.filter_cons_of_pos ha, hsort']
    · rw [List.filter_cons_of_neg ha, List.filter_cons_of_neg ha, ih]

lemma remaining_sublist {request : PageRequest} {sorted rest : List α}
    (h : remaining key request sorted = .ok rest) : rest.Sublist sorted := by
  rw [remaining] at h
  split at h
  · obtain ⟨after, -, rfl⟩ := map_eq_ok.1 h
    exact List.dropWhile_sublist _
  · obtain rfl := Except.ok.inj h
    exact List.drop_sublist _ _

/-- Every page shows a part of the sorted items, whatever is asked for. -/
lemma sublist_of_build {request : PageRequest} {items : List α} {default : ℕ} {page : Page α}
    (h : build key items request default = .ok page) :
    page.totalSize = items.length ∧ page.items.Sublist (sort key items) := by
  rw [build] at h
  dsimp only at h
  split at h
  · simp at h
  · obtain ⟨rest, hr, rfl⟩ := map_eq_ok.1 h
    exact ⟨length_sort _, (List.take_sublist _ _).trans (remaining_sublist hr)⟩

lemma build_whole {request : PageRequest} {items : List α} {default : ℕ} (hpos : request.pos = none)
    (hnext : request.next = none) (hl : 0 < request.limit.getD default)
    (hi : items.length ≤ request.limit.getD default) :
    build key items request default = .ok ⟨items.length, sort key items, none, []⟩ := by
  have hne : request.limit.getD default ≠ 0 := hl.ne'
  have hrest : remaining key request (sort key items) = .ok (sort key items) := by
    simp [remaining, hpos, hnext]
  have hlen : (sort key items).length ≤ request.limit.getD default := by rwa [length_sort]
  simp [build, hne, hrest, Except.map, cut, List.take_of_length_le hlen, Nat.not_lt.2 hi]

lemma limit_pos_of_build {items : List α} {request : PageRequest} {default : ℕ} {p : Page α}
    (h : build key items request default = .ok p) : 0 < request.limit.getD default := by
  refine Nat.pos_of_ne_zero fun hzero => ?_
  simp [build, hzero] at h

lemma exists_remaining_of_remaining {request : PageRequest} {sorted rest : List α}
    (h : remaining key request sorted = .ok rest) (others : List α) :
    ∃ rest', remaining key request others = .ok rest' := by
  rw [remaining] at h ⊢
  cases hnext : request.next with
  | none => exact ⟨_, rfl⟩
  | some token =>
    simp only [hnext, map_eq_ok] at h ⊢
    obtain ⟨after, hafter, -⟩ := h
    exact ⟨_, after, hafter, rfl⟩

/-- Whether there is a page depends on the request, not on what is listed. -/
lemma exists_build_of_build {items : List α} {request : PageRequest} {default : ℕ} {p : Page α}
    (h : build key items request default = .ok p) (others : List α) :
    ∃ q, build key others request default = .ok q := by
  have hlimit := (limit_pos_of_build h).ne'
  simp only [build, if_neg hlimit, map_eq_ok] at h ⊢
  obtain ⟨rest, hrest, -⟩ := h
  obtain ⟨rest', hrest'⟩ := exists_remaining_of_remaining hrest (sort key others)
  exact ⟨_, rest', hrest', rfl⟩

/-- The request for a page behind a key, or for the first page. -/
def request (limit : ℕ) (after : Option PageKey) : PageRequest :=
  ⟨none, some limit, after.map PageKey.token⟩

lemma build_after {limit : ℕ} (hl : 0 < limit) (items : List α) (after : Option PageKey)
    (default : ℕ) :
    build key items (request limit after) default =
      .ok (cut key items.length limit (behind key after (sort key items))) := by
  have hne : limit ≠ 0 := hl.ne'
  cases after with
  | none => simp [build, request, remaining, hne, Except.map]
  | some k =>
    simp [build, request, remaining, hne, Except.map, PageKey.ofToken_token,
      (sorted_sort items).dropWhile_le]

lemma eq_cut_of_build {limit : ℕ} {items : List α} {after : Option PageKey} {default : ℕ}
    {page : Page α} (h : build key items (request limit after) default = .ok page) :
    0 < limit ∧ page = cut key items.length limit (behind key after (sort key items)) := by
  rcases Nat.eq_zero_or_pos limit with rfl | hl
  · simp [build, request] at h
  · rw [build_after hl] at h
    exact ⟨hl, (Except.ok.inj h).symm⟩

/-- A page without a token shows all that is left. Otherwise more is left than the limit, and the
token is made from the last item on the page. -/
lemma cut_cases (key : α → PageKey) {limit : ℕ} (hl : 0 < limit) (total : ℕ) (rest : List α) :
    (rest.length ≤ limit ∧ cut key total limit rest = ⟨total, rest, none, []⟩) ∨
      ∃ shown last, limit < rest.length ∧ rest.take limit = shown ++ [last] ∧
        cut key total limit rest = ⟨total, rest.take limit, some (key last).token, []⟩ := by
  by_cases hr : limit < rest.length
  · right
    have hne : rest.take limit ≠ [] := by
      rw [Ne, List.take_eq_nil_iff]
      rintro (h | h)
      · omega
      · simp [h] at hr
    refine ⟨_, _, hr, (List.dropLast_append_getLast hne).symm, ?_⟩
    simp [cut, hr, List.getLast?_eq_getLast_of_ne_nil hne]
  · left
    exact ⟨by omega, by simp [cut, hr, List.take_of_length_le (Nat.le_of_not_lt hr)]⟩

section Map

variable {β : Type} {key : β → PageKey} (f : α → β)

lemma sort_map (items : List α) :
    sort key (items.map f) = (sort (fun a => key (f a)) items).map f := by
  rw [sort, sort, List.map_mergeSort]
  intro _ _ _ _
  rfl

lemma remaining_map (request : PageRequest) (sorted : List α) :
    remaining key request (sorted.map f) =
      (remaining (fun a => key (f a)) request sorted).map (List.map f) := by
  cases hnext : request.next with
  | none => simp only [remaining, hnext, Except.map, List.map_drop]
  | some token =>
    simp only [remaining, hnext]
    generalize PageKey.ofToken token = result
    cases result with
    | error e => rfl
    | ok after => simp only [Except.map, List.dropWhile_map, Function.comp_def]

lemma cut_map (total limit : ℕ) (rest : List α) :
    cut key total limit (rest.map f) = (cut (fun a => key (f a)) total limit rest).map f := by
  simp [cut, map, ← List.map_take, List.getLast?_map, Function.comp_def]

lemma build_map (items : List α) (request : PageRequest) (default : ℕ) :
    build key (items.map f) request default =
      (build (fun a => key (f a)) items request default).map (Page.map f) := by
  rw [build, build]
  dsimp only
  split
  · rfl
  · rw [sort_map, remaining_map, List.length_map]
    cases remaining (fun a => key (f a)) request (sort (fun a => key (f a)) items) with
    | error e => rfl
    | ok rest => exact congrArg Except.ok (cut_map f _ _ rest)

end Map

end MissionCatalog.Page
