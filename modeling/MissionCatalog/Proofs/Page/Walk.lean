import MissionCatalog.Proofs.Page.Cut

/-!
# Walks through a listing

A walk asks for page after page, each time with the token of the page before. The listing may
change between two requests: the keys on the pages increase all the same, so that none is shown
twice, and a key that is there all the time is not passed over.
-/
namespace MissionCatalog.Page

variable {α : Type} {key : α → PageKey}

/-- Pages asked for one after another, the first with `next` and each further one with the token of
the page before it. `source i` answers the request for page `i`. -/
inductive Walk : (ℕ → Option String → Except QueryError (Page α)) → Option String →
    List (Page α) → Prop
  | one {source : ℕ → Option String → Except QueryError (Page α)} {next : Option String}
      {page : Page α} (answer : source 0 next = .ok page) : Walk source next [page]
  | more {source : ℕ → Option String → Except QueryError (Page α)} {next : Option String}
      {page : Page α} {token : String} {pages : List (Page α)}
      (answer : source 0 next = .ok page) (hasToken : page.token = some token)
      (rest : Walk (fun i => source (i + 1)) (some token) pages) : Walk source next (page :: pages)

/-- The items on all pages. -/
def shown (pages : List (Page α)) : List α := pages.flatMap (·.items)

@[simp] lemma shown_cons (page : Page α) (pages : List (Page α)) :
    shown (page :: pages) = page.items ++ shown pages := rfl

@[simp] lemma shown_nil : shown ([] : List (Page α)) = [] := rfl

/-- Page `i` is cut from the items `lists i`. -/
def cutFrom (key : α → PageKey) (lists : ℕ → List α) (limits : ℕ → ℕ) (default i : ℕ)
    (next : Option String) : Except QueryError (Page α) :=
  build key (lists i) ⟨none, some (limits i), next⟩ default

lemma Walk.length_pos {source : ℕ → Option String → Except QueryError (Page α)}
    {next : Option String} {pages : List (Page α)} (h : Walk source next pages) :
    0 < pages.length := by
  cases h <;> simp

/-- All walks over one source are the beginnings of the one that has come to its end. -/
lemma Walk.isBeginning {source : ℕ → Option String → Except QueryError (Page α)}
    {next : Option String} {pages other : List (Page α)} (h : Walk source next pages)
    (he : ∀ page ∈ pages.getLast?, page.token = none) (ho : Walk source next other) :
    other <+: pages := by
  induction h generalizing other with
  | @one source next page answer =>
    cases ho with
    | one answer' =>
      obtain rfl := Except.ok.inj (answer.symm.trans answer')
      exact List.prefix_rfl
    | more answer' hasToken =>
      obtain rfl := Except.ok.inj (answer.symm.trans answer')
      simp [he page rfl] at hasToken
  | @more source next page token pages answer hasToken rest ih =>
    have hlast : (page :: pages).getLast? = pages.getLast? :=
      List.getLast?_cons_of_ne_nil (List.length_pos_iff.1 rest.length_pos)
    cases ho with
    | one answer' =>
      obtain rfl := Except.ok.inj (answer.symm.trans answer')
      simp
    | more answer' hasToken' rest' =>
      obtain rfl := Except.ok.inj (answer.symm.trans answer')
      obtain rfl := Option.some.inj (hasToken.symm.trans hasToken')
      rw [List.prefix_cons_inj]
      exact ih (hlast ▸ he) rest'

lemma mem_items_of_build {limit : ℕ} {items : List α} {after : Option PageKey} {default : ℕ}
    {page : Page α} (h : build key items (request limit after) default = .ok page) {a : α}
    (ha : a ∈ page.items) : a ∈ items ∧ ∀ k ∈ after, k.Before (key a) := by
  obtain ⟨-, rfl⟩ := eq_cut_of_build h
  simpa using List.mem_of_mem_take ha

lemma increasing_of_build {limit : ℕ} {items : List α} {after : Option PageKey} {default : ℕ}
    {page : Page α} (h : build key items (request limit after) default = .ok page)
    (hd : (items.map key).Nodup) : Increasing key page.items := by
  obtain ⟨-, rfl⟩ := eq_cut_of_build h
  have hs : Increasing key (sort key items) :=
    (sorted_sort items).increasing (nodup_map_sort.2 hd)
  exact List.Pairwise.sublist (List.Sublist.trans (List.take_sublist _ _) (behind_sublist _ _ _)) hs

/-- The page ends with the item `last`, and no item left to later pages comes before it. -/
structure EndsWith (key : α → PageKey) (items : List α) (after : Option PageKey) (page : Page α)
    (last : α) : Prop where
  mem : last ∈ page.items
  le : ∀ a ∈ page.items, (key a).rank ≤ (key last).rank
  rest : ∀ a ∈ items, (∀ k ∈ after, k.Before (key a)) →
    a ∈ page.items ∨ (key last).rank ≤ (key a).rank

/-- A page without a token shows all items behind its beginning; a token is made from the last
item. -/
lemma token_of_build {limit : ℕ} {items : List α} {after : Option PageKey} {default : ℕ}
    {page : Page α} (h : build key items (request limit after) default = .ok page) :
    (page.token = none ∧ ∀ a ∈ items, (∀ k ∈ after, k.Before (key a)) → a ∈ page.items) ∨
      ∃ last, page.token = some (key last).token ∧ EndsWith key items after page last := by
  obtain ⟨hl, rfl⟩ := eq_cut_of_build h
  have hs : Sorted key (behind key after (sort key items)) :=
    (sorted_sort items).sublist (behind_sublist _ _ _)
  have hmem : ∀ a ∈ items, (∀ k ∈ after, k.Before (key a)) →
      a ∈ behind key after (sort key items) := fun a ha hk => mem_behind.2 ⟨mem_sort.2 ha, hk⟩
  rcases cut_cases key hl items.length (behind key after (sort key items)) with
    ⟨-, he⟩ | ⟨shown, last, hlt, ht, he⟩
  · left
    rw [he]
    exact ⟨rfl, hmem⟩
  · right
    rw [he]
    generalize behind key after (sort key items) = rest at *
    have hd : rest = shown ++ last :: rest.drop limit := by
      conv_lhs => rw [← List.take_append_drop limit rest, ht]
      simp
    rw [Sorted, hd, List.pairwise_append] at hs
    refine ⟨last, rfl, by simp [ht], ?_, ?_⟩
    · intro a ha
      simp only [ht, List.mem_append, List.mem_singleton] at ha
      rcases ha with ha | rfl
      · exact hs.2.2 a ha last (by simp)
      · exact le_rfl
    · intro a ha hk
      have har := hmem a ha hk
      rw [hd] at har
      simp only [List.mem_append, List.mem_cons] at har
      rcases har with ha | rfl | ha
      · exact .inl (by simp [ht, ha])
      · exact .inr le_rfl
      · exact .inr ((List.pairwise_cons.1 hs.2.1).1 a ha)

section Changing

variable {lists : ℕ → List α} {limits : ℕ → ℕ} {default : ℕ} {after : Option PageKey}
  {pages : List (Page α)}

/-- What holds of a single page, and passes from the walk behind the last item of a page to the walk
with that page in front, holds of all walks. -/
theorem Walk.induction_on_cut {P : (ℕ → List α) → Option PageKey → List (Page α) → Prop}
    (h : Walk (cutFrom key lists limits default) (after.map PageKey.token) pages)
    (single : ∀ {lists : ℕ → List α} {limit after page},
      build key (lists 0) (request limit after) default = .ok page → P lists after [page])
    (more : ∀ {lists : ℕ → List α} {limit after page last pages},
      build key (lists 0) (request limit after) default = .ok page →
      EndsWith key (lists 0) after page last → pages ≠ [] →
      P (fun i => lists (i + 1)) (some (key last)) pages → P lists after (page :: pages)) :
    P lists after pages := by
  generalize hs : cutFrom key lists limits default = source at h
  generalize hn : after.map PageKey.token = next at h
  induction h generalizing lists limits after with
  | one answer =>
    subst hs hn
    exact single answer
  | @more _ _ page token pages answer hasToken rest ih =>
    subst hs hn
    rcases token_of_build answer with ⟨hnone, -⟩ | ⟨last, htoken, hends⟩
    · simp [hnone] at hasToken
    rw [htoken] at hasToken
    refine more answer hends (List.length_pos_iff.1 rest.length_pos) ?_
    exact @ih (fun i => lists (i + 1)) (fun i => limits (i + 1)) (some (key last)) rfl hasToken

lemma Walk.mem_lists (h : Walk (cutFrom key lists limits default) (after.map PageKey.token) pages) :
    ∀ i (hi : i < pages.length), ∀ a ∈ pages[i].items, a ∈ lists i := by
  refine h.induction_on_cut
    (P := fun lists _ pages => ∀ i (hi : i < pages.length), ∀ a ∈ pages[i].items, a ∈ lists i) ?_ ?_
  · intro lists limit after page answer i hi a ha
    obtain rfl : i = 0 := by simpa using hi
    exact (mem_items_of_build answer ha).1
  · intro lists limit after page last pages answer _ _ ih i hi a ha
    cases i with
    | zero => exact (mem_items_of_build answer ha).1
    | succ i => exact ih i (by simpa using hi) a ha

lemma Walk.increasing (h : Walk (cutFrom key lists limits default) (after.map PageKey.token) pages)
    (hd : ∀ i < pages.length, ((lists i).map key).Nodup) :
    Increasing key (shown pages) ∧ ∀ a ∈ shown pages, ∀ k ∈ after, k.Before (key a) := by
  revert hd
  refine h.induction_on_cut (P := fun lists after pages =>
    (∀ i < pages.length, ((lists i).map key).Nodup) →
      Increasing key (shown pages) ∧ ∀ a ∈ shown pages, ∀ k ∈ after, k.Before (key a)) ?_ ?_
  · intro lists limit after page answer hd
    simp only [shown_cons, shown_nil, List.append_nil]
    exact ⟨increasing_of_build answer (hd 0 (by simp)),
      fun a ha => (mem_items_of_build answer ha).2⟩
  · intro lists limit after page last pages answer hends _ ih hd
    obtain ⟨hinc, hbehind⟩ := ih fun i hi => hd (i + 1) (by simpa using hi)
    have hlt : ∀ b ∈ shown pages, (key last).rank < (key b).rank := fun b hb =>
      (PageKey.before_iff _ _).1 (hbehind b hb (key last) rfl)
    rw [shown_cons, Increasing, List.pairwise_append]
    refine ⟨⟨increasing_of_build answer (hd 0 (by simp)), hinc, ?_⟩, ?_⟩
    · intro a ha b hb
      exact (PageKey.before_iff _ _).2 ((hends.le a ha).trans_lt (hlt b hb))
    · intro a ha k hk
      rcases List.mem_append.1 ha with ha | ha
      · exact (mem_items_of_build answer ha).2 k hk
      · have hkl := (PageKey.before_iff _ _).1 ((mem_items_of_build answer hends.mem).2 k hk)
        exact (PageKey.before_iff _ _).2 (hkl.trans (hlt a ha))

lemma Walk.complete (h : Walk (cutFrom key lists limits default) (after.map PageKey.token) pages)
    (he : ∀ page ∈ pages.getLast?, page.token = none) {k : PageKey}
    (hk : ∀ c ∈ after, c.Before k) (hl : ∀ i < pages.length, k ∈ (lists i).map key) :
    k ∈ (shown pages).map key := by
  revert he hk hl
  refine h.induction_on_cut (P := fun lists after pages =>
    (∀ page ∈ pages.getLast?, page.token = none) → (∀ c ∈ after, c.Before k) →
      (∀ i < pages.length, k ∈ (lists i).map key) → k ∈ (shown pages).map key) ?_ ?_
  · intro lists limit after page answer he hk hl
    obtain ⟨a, ha, rfl⟩ := List.mem_map.1 (hl 0 (by simp))
    rcases token_of_build answer with ⟨-, hall⟩ | ⟨last, htoken, -⟩
    · exact List.mem_map.2 ⟨a, by simpa using hall a ha hk, rfl⟩
    · simp [he page rfl] at htoken
  · intro lists limit after page last pages answer hends hne ih he hk hl
    rw [shown_cons, List.map_append, List.mem_append]
    by_cases hlk : (key last).Before k
    · right
      refine ih (fun p hp => ?_) (by simpa using hlk) fun i hi => hl (i + 1) (by simpa using hi)
      exact he p (by rwa [List.getLast?_cons_of_ne_nil hne])
    · left
      -- The key is not behind the token, so it is that of the last item or of one before it.
      obtain ⟨a, ha, rfl⟩ := List.mem_map.1 (hl 0 (by simp))
      rcases hends.rest a ha hk with hshown | hle
      · exact List.mem_map_of_mem hshown
      · rw [PageKey.before_iff, not_lt] at hlk
        exact List.mem_map.2 ⟨last, hends.mem, PageKey.rank_injective (le_antisymm hle hlk)⟩

/-- Over lists that change in any way between the requests, the keys on the pages of a walk increase
strictly, every page shows items of its own list, and when the walk ends, every key that was in all
the lists has been shown once. -/
theorem walk_over_changes {pages : List (Page α)}
    (h : Walk (cutFrom key lists limits default) none pages)
    (hd : ∀ i < pages.length, ((lists i).map key).Nodup) :
    ((shown pages).map key).Pairwise PageKey.Before ∧
      (∀ i (hi : i < pages.length), ∀ a ∈ pages[i].items, a ∈ lists i) ∧
      ((∀ page ∈ pages.getLast?, page.token = none) → ∀ k,
        (∀ i < pages.length, k ∈ (lists i).map key) → ((shown pages).map key).count k = 1) := by
  have hw : Walk (cutFrom key lists limits default) ((none : Option PageKey).map PageKey.token)
      pages := h
  have hinc : ((shown pages).map key).Pairwise PageKey.Before :=
    List.pairwise_map.2 (hw.increasing hd).1
  have hnd : ((shown pages).map key).Nodup := hinc.imp fun hab => hab.ne
  refine ⟨hinc, hw.mem_lists, fun he k hk => ?_⟩
  exact List.count_eq_one_of_mem hnd (hw.complete he (by simp) hk)

/-- The item that the first token names is removed before the second request, and another is
inserted just behind it. -/
theorem walk_over_changes_removed :
    ∃ a b c : PageKey, ∃ pages,
      Walk (cutFrom id (fun i => if i = 0 then [c, a] else [c, b]) (fun _ => 1) 1) none pages ∧
      (shown pages).Pairwise PageKey.Before ∧ (shown pages).count c = 1 := by
  let a : PageKey := ⟨"/a", none⟩
  let b : PageKey := ⟨"/b", none⟩
  let c : PageKey := ⟨"/c", none⟩
  let lists : ℕ → List PageKey := fun i => if i = 0 then [c, a] else [c, b]
  have h0 : cutFrom id lists (fun _ => 1) 1 0 none = .ok ⟨2, [a], some a.token, []⟩ := by
    have hs : behind id none (sort id [c, a]) = [a, c] := by cbv
    exact (build_after one_pos [c, a] none 1).trans (by rw [hs]; rfl)
  have h1 : cutFrom id lists (fun _ => 1) 1 1 (some a.token) = .ok ⟨2, [b], some b.token, []⟩ := by
    have hs : behind id (some a) (sort id [c, b]) = [b, c] := by cbv
    exact (build_after one_pos [c, b] (some a) 1).trans (by rw [hs]; rfl)
  have h2 : cutFrom id lists (fun _ => 1) 1 2 (some b.token) = .ok ⟨2, [c], none, []⟩ := by
    have hs : behind id (some b) (sort id [c, b]) = [c] := by cbv
    exact (build_after one_pos [c, b] (some b) 1).trans (by rw [hs]; rfl)
  have hw : Walk (cutFrom id lists (fun _ => 1) 1) none
      [⟨2, [a], some a.token, []⟩, ⟨2, [b], some b.token, []⟩, ⟨2, [c], none, []⟩] :=
    .more h0 rfl (.more h1 rfl (.one h2))
  have hd : ∀ i, ((lists i).map id).Nodup := by
    intro i
    cases i <;> simp [lists, a, b, c]
  have hc : ∀ i, c ∈ (lists i).map id := by
    intro i
    cases i <;> simp [lists]
  obtain ⟨hinc, -, hall⟩ := walk_over_changes hw fun i _ => hd i
  exact ⟨a, b, c, _, hw, by simpa using hinc, by simpa using hall (by simp) c fun i _ => hc i⟩

end Changing

end MissionCatalog.Page
