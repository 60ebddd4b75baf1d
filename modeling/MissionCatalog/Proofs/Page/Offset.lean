import MissionCatalog.Proofs.Page.Cut
import MissionCatalog.Proofs.Token

/-!
# Pages by offset and pages by token

A token names the place behind its key, which on the sorted list is the offset that counts the items
with a key up to it. So pages by token are pages by offset, and what is said of the latter holds of
both.
-/
namespace MissionCatalog.Page

variable {α : Type} {key : α → PageKey}

/-- The items in the order of their keys. Those that share a key stay in the order in which they are
given. -/
structure IsOrdering (key : α → PageKey) (items ordered : List α) : Prop where
  perm : ordered.Perm items
  sorted : Sorted key ordered
  stable : ∀ k, (ordered.filter fun a => key a = k) = items.filter fun a => key a = k

/-- The page holds the items from an offset on, as many as there is room for. If items remain behind
them, it has a token with the key of the last one. -/
structure IsSlice (key : α → PageKey) (ordered : List α) (start limit : ℕ) (page : Page α) :
    Prop where
  totalSize : page.totalSize = ordered.length
  items : page.items = (ordered.drop start).take (min limit (ordered.length - start))
  continues : page.token.isSome ↔ start + page.items.length < ordered.length
  token : ∀ token ∈ page.token, ∃ last ∈ page.items.getLast?, token = (key last).token
  systems : page.systems = []

lemma sort_filter_key (items : List α) (k : PageKey) :
    sort key (items.filter fun a => key a = k) = items.filter fun a => key a = k := by
  apply Sorted.sort_eq
  apply List.pairwise_of_forall_mem_list
  intro a ha b hb
  have hkey : key a = key b := by
    rw [of_decide_eq_true (List.mem_filter.1 ha).2, of_decide_eq_true (List.mem_filter.1 hb).2]
  rw [hkey]

lemma isOrdering_sort (key : α → PageKey) (items : List α) :
    IsOrdering key items (sort key items) where
  perm := sort_perm key items
  sorted := sorted_sort items
  stable k := by rw [← sort_filter, sort_filter_key]

/-- On a sorted list the items up to a key are counted to find the place behind it. -/
lemma Sorted.dropWhile_eq_drop {l : List α} (h : Sorted key l) (k : PageKey) :
    l.dropWhile (fun a => (key a).le k) = l.drop (l.countP fun a => (key a).le k) := by
  have hlength : (l.dropWhile fun a => (key a).le k).length = l.countP fun a => !(key a).le k := by
    rw [h.dropWhile_le, behind, List.countP_eq_length_filter]
    simp
  have hcount := List.length_eq_countP_add_countP (fun a => (key a).le k) (l := l)
  simp only [Bool.not_eq_true, Bool.decide_eq_false] at hcount
  have hdrop := List.suffix_iff_eq_drop.1 (List.dropWhile_suffix (l := l) fun a => (key a).le k)
  rw [hdrop, hlength]
  congr 1
  omega

lemma remaining_token (sorted : List α) (h : Sorted key sorted) (pos limit : Option ℕ)
    (k : PageKey) : remaining key ⟨pos, limit, some k.token⟩ sorted =
      remaining key ⟨some (sorted.countP fun a => (key a).le k), limit, none⟩ sorted := by
  simp only [remaining, PageKey.ofToken_token, Except.map, h.dropWhile_eq_drop, Option.getD_some]

lemma build_token (items : List α) (pos limit : Option ℕ) (k : PageKey) (default : ℕ) :
    build key items ⟨pos, limit, some k.token⟩ default =
      build key items ⟨some (items.countP fun a => (key a).le k), limit, none⟩ default := by
  unfold build
  dsimp only
  rw [remaining_token _ (sorted_sort items), (sort_perm key items).countP_eq]

lemma isSlice_cut (ordered : List α) {start limit : ℕ} (hl : 0 < limit)
    (hstart : start ≤ ordered.length) :
    IsSlice key ordered start limit (cut key ordered.length limit (ordered.drop start)) := by
  have hlength := List.length_drop (i := start) (l := ordered)
  obtain ⟨hfits, hcut⟩ | ⟨shown, last, hmore, hshown, hcut⟩ :=
    cut_cases key hl ordered.length (ordered.drop start)
  · have hmin : min limit (ordered.length - start) = ordered.length - start := by omega
    rw [hcut]
    refine ⟨rfl, ?_, ?_, ?_, rfl⟩
    · rw [hmin, ← hlength, List.take_length]
    · rw [hlength]
      simp
      omega
    · simp
  · have hmin : min limit (ordered.length - start) = limit := by omega
    rw [hcut]
    refine ⟨rfl, by rw [hmin], ?_, ?_, rfl⟩
    · rw [List.length_take, hlength]
      simp
      omega
    · intro token htoken
      obtain rfl := Option.some.inj htoken
      refine ⟨last, ?_, rfl⟩
      rw [hshown]
      simp

lemma exists_isSlice (items : List α) (pos : Option ℕ) {limit : Option ℕ} {default : ℕ}
    (hl : 0 < limit.getD default) :
    ∃ page, build key items ⟨pos, limit, none⟩ default = .ok page ∧
      IsSlice key (sort key items) (min (pos.getD 0) items.length) (limit.getD default) page := by
  have hdrop : (sort key items).drop (pos.getD 0) =
      (sort key items).drop (min (pos.getD 0) items.length) := by
    rw [List.drop_eq_drop_iff, length_sort]
    omega
  refine ⟨_, ?_, isSlice_cut (sort key items) hl (by rw [length_sort]; omega)⟩
  have hne : limit.getD default ≠ 0 := hl.ne'
  simp only [build, if_neg hne, remaining, Except.map, hdrop]

lemma build_eq_error_iff {items : List α} {request : PageRequest} {default : ℕ} {e : QueryError} :
    build key items request default = .error e ↔
      request.limit.getD default = 0 ∧ e = .zeroLimit ∨ request.limit.getD default ≠ 0 ∧
        ∃ token ∈ request.next, PageKey.ofToken token = .error e := by
  by_cases hzero : request.limit.getD default = 0
  · simp [build, hzero, eq_comm]
  · cases hnext : request.next with
    | none => simp [build, hzero, remaining, hnext, Except.map]
    | some token =>
      cases hread : PageKey.ofToken token <;>
        simp [build, hzero, remaining, hnext, hread, Except.map]

lemma exists_error_iff (items : List α) (request : PageRequest) (default : ℕ) :
    (∃ e, build key items request default = .error e) ↔ request.limit.getD default = 0 ∨
      ∃ token ∈ request.next, ∀ k, PageKey.ofToken token ≠ .ok k := by
  have hread : ∀ token, (∃ e, PageKey.ofToken token = .error e) ↔
      ∀ k, PageKey.ofToken token ≠ .ok k := by
    intro token
    cases PageKey.ofToken token <;> simp
  simp only [build_eq_error_iff, exists_or, exists_and_left, exists_eq, and_true, ← hread]
  constructor
  · intro h
    obtain hzero | ⟨-, e, token, htoken, he⟩ := h
    · exact .inl hzero
    · exact .inr ⟨token, htoken, e, he⟩
  · intro h
    by_cases hzero : request.limit.getD default = 0
    · exact .inl hzero
    · obtain ⟨token, htoken, e, he⟩ := h.resolve_left hzero
      exact .inr ⟨hzero, e, token, htoken, he⟩

lemma category_of_build {items : List α} {request : PageRequest} {default : ℕ} {e : QueryError}
    (h : build key items request default = .error e) : e.category = .badRequest := by
  obtain ⟨-, rfl⟩ | ⟨-, token, -, he⟩ := build_eq_error_iff.1 h
  · rfl
  · obtain ⟨k, hk⟩ | ⟨_, he', hcategory⟩ := PageKey.ofToken_answers token
    · simp [hk] at he
    · obtain rfl := Except.error.inj (he.symm.trans he')
      exact hcategory

/-- Pages are cut from the items in the order of their keys. Without a token the page is a slice that
begins at the offset, or at the end of the list if the offset is beyond it. With the token of a key,
which no item need have, it is the page at the offset that counts the items with a key up to this one,
and another offset beside the token does not count. There is no page just for a limit of zero or a
text that is no token, and both are bad requests. -/
theorem pages_by_token_and_offset (key : α → PageKey) (items : List α) (default : ℕ) :
    IsOrdering key items (sort key items) ∧
    (∀ pos limit, 0 < limit.getD default →
      ∃ page, build key items ⟨pos, limit, none⟩ default = .ok page ∧
        IsSlice key (sort key items) (min (pos.getD 0) items.length) (limit.getD default) page) ∧
    (∀ pos limit k, build key items ⟨pos, limit, some (PageKey.token k)⟩ default =
      build key items ⟨some (items.countP fun a => (key a).le k), limit, none⟩ default) ∧
    ∀ request, ((∃ e, build key items request default = .error e) ↔
        request.limit.getD default = 0 ∨
          ∃ token ∈ request.next, ∀ k, PageKey.ofToken token ≠ .ok k) ∧
      ∀ e, build key items request default = .error e → e.category = .badRequest := by
  refine ⟨isOrdering_sort key items, ?_, ?_, ?_⟩
  · intro pos limit hlimit
    exact exists_isSlice items pos hlimit
  · intro pos limit k
    exact build_token items pos limit k default
  · intro request
    exact ⟨exists_error_iff items request default, fun e he => category_of_build he⟩

/-- No item has the key `aa` in the token. The items behind it are those behind the first one. -/
theorem pages_by_token_and_offset_absent : ∃ page,
    build (⟨·, none⟩) ["b", "a", "c", "b"] ⟨some 7, some 2, some (PageKey.token ⟨"aa", none⟩)⟩ 1 =
        .ok page ∧
      page.items = ["b", "b"] ∧ page.token = some (PageKey.token ⟨"b", none⟩) := by
  obtain ⟨-, hslice, htoken, -⟩ :=
    pages_by_token_and_offset (fun name => ⟨name, none⟩) ["b", "a", "c", "b"] 1
  have hsort : sort (fun name => ⟨name, none⟩) ["b", "a", "c", "b"] = ["a", "b", "b", "c"] := by
    cbv
  have hcount :
      ["b", "a", "c", "b"].countP (fun name => PageKey.le ⟨name, none⟩ ⟨"aa", none⟩) = 1 := by
    decide +kernel
  obtain ⟨page, hpage, hitems⟩ := hslice (some 1) (some 2) (by decide)
  rw [hsort] at hitems
  refine ⟨page, ?_, hitems.items, ?_⟩
  · rw [htoken, hcount, hpage]
  · have hmore : page.token.isSome := hitems.continues.2 (by rw [hitems.items]; decide)
    obtain ⟨token, hsome⟩ := Option.isSome_iff_exists.1 hmore
    obtain ⟨last, hlast, rfl⟩ := hitems.token token hsome
    rw [hitems.items] at hlast
    obtain rfl := Option.some.inj hlast
    exact hsome

end MissionCatalog.Page
