import MissionCatalog.Proofs.Page.Walk
import MissionCatalog.View

/-!
# Walks that show everything

Over a listing that does not change, a walk with positive limits ends. If the keys of the items
are distinct, its pages are the sorted list cut into pieces. Items that share a key are lost where
a page ends between them; `exists_exhausts` and `Passes` say that nothing else goes wrong.
-/
namespace MissionCatalog.Page

variable {α : Type} {key : α → PageKey}

/-- The pages of a listing, page `i` with the limit `limits i`. -/
def asking (list : PageRequest → Except QueryError (Page α)) (limits : ℕ → ℕ) (i : ℕ)
    (next : Option String) : Except QueryError (Page α) :=
  list ⟨none, some (limits i), next⟩

/-- All pages report the same size and the same space systems, every page but the last is full, and
just the last has no token. -/
structure Regular (limits : ℕ → ℕ) (total : ℕ) (systems : List String) (pages : List (Page α)) :
    Prop where
  totalSize : ∀ page ∈ pages, page.totalSize = total
  systems : ∀ page ∈ pages, page.systems = systems
  full : ∀ i (hi : i + 1 < pages.length), pages[i].items.length = limits i
  token : ∀ i (hi : i < pages.length), pages[i].token.isSome ↔ i + 1 < pages.length

/-- The pages of the walk that goes on to the end of a listing of `total` items. -/
structure Exhausts (source : ℕ → Option String → Except QueryError (Page α)) (limits : ℕ → ℕ)
    (total : ℕ) (pages : List (Page α)) : Prop where
  walk : Walk source none pages
  /-- No other walk is possible, and none goes on further. -/
  only : ∀ other, Walk source none other → other <+: pages
  regular : ∃ systems, Regular limits total systems pages

lemma Regular.single {limits : ℕ → ℕ} {total : ℕ} {systems : List String} {items : List α} :
    Regular limits total systems [⟨total, items, none, systems⟩] where
  totalSize := by simp
  systems := by simp
  full := by simp
  token := by simp

lemma Regular.cons {limits : ℕ → ℕ} {total : ℕ} {systems : List String} {items : List α}
    {token : String} {pages : List (Page α)}
    (h : Regular (fun i => limits (i + 1)) total systems pages) (hne : pages ≠ [])
    (hi : items.length = limits 0) :
    Regular limits total systems (⟨total, items, some token, systems⟩ :: pages) where
  totalSize := by simpa using h.totalSize
  systems := by simpa using h.systems
  full i hlt := by
    cases i with
    | zero => exact hi
    | succ i => exact h.full i (by simpa using hlt)
  token i hlt := by
    cases i with
    | zero => simpa using List.length_pos_iff.2 hne
    | succ i => simpa using h.token i (by simpa using hlt)

lemma Regular.token_eq_none {limits : ℕ → ℕ} {total : ℕ} {systems : List String}
    {pages : List (Page α)} (h : Regular limits total systems pages) :
    ∀ page ∈ pages.getLast?, page.token = none := by
  intro page hp
  obtain ⟨hne, rfl⟩ := List.mem_getLast?_eq_getLast hp
  have hlen := List.length_pos_iff.2 hne
  have ht := h.token (pages.length - 1) (by omega)
  rw [← List.getLast_eq_getElem hne] at ht
  rw [← Option.not_isSome_iff_eq_none, ht]
  omega

lemma behind_behind {after : Option PageKey} {c : PageKey} (h : ∀ k ∈ after, k.rank ≤ c.rank)
    (items : List α) :
    behind key (some c) (behind key after items) = behind key (some c) items := by
  rw [behind, behind, List.filter_filter]
  refine List.filter_congr fun a _ => ?_
  cases after with
  | none => simp
  | some k =>
    have hk := h k rfl
    by_cases hc : (key a).le c
    · simp [hc]
    · have ha : c.rank < (key a).rank := by
        simpa [PageKey.le_eq_false_iff, PageKey.before_iff] using hc
      simpa [hc, PageKey.le_eq_false_iff, PageKey.before_iff] using hk.trans_lt ha

section Behind

variable {rest init : List α} {last : α} {limit : ℕ}

lemma behind_last (hs : Sorted key rest) (ht : rest.take limit = init ++ [last]) :
    behind key (some (key last)) rest = behind key (some (key last)) (rest.drop limit) := by
  have hle : ∀ a ∈ rest.take limit, (key a).rank ≤ (key last).rank := by
    have hp := hs.sublist (List.take_sublist limit rest)
    rw [Sorted, ht, List.pairwise_append] at hp
    intro a ha
    rw [ht, List.mem_append, List.mem_singleton] at ha
    rcases ha with ha | rfl
    · exact hp.2.2 a ha last (by simp)
    · exact le_rfl
  conv_lhs => rw [← List.take_append_drop limit rest]
  have hnil : behind key (some (key last)) (rest.take limit) = [] := by
    refine List.filter_eq_nil_iff.2 fun a ha => ?_
    simpa [PageKey.le_iff] using hle a ha
  simp only [behind, List.filter_append] at hnil ⊢
  rw [hnil, List.nil_append]

/-- With distinct keys, all that is left after a page is behind its last item. -/
lemma behind_last_of_nodup (hs : Sorted key rest) (hd : (rest.map key).Nodup)
    (ht : rest.take limit = init ++ [last]) :
    behind key (some (key last)) rest = rest.drop limit := by
  rw [behind_last hs ht]
  refine List.filter_eq_self.2 fun a ha => ?_
  have hp := hs.increasing hd
  rw [Increasing, ← List.take_append_drop limit rest, ht, List.pairwise_append] at hp
  simpa [PageKey.le_eq_false_iff] using hp.2.2 last (by simp) a ha

lemma key_eq_last (hs : Sorted key rest) (ht : rest.take limit = init ++ [last]) {a : α}
    (ha : a ∈ rest.drop limit) (hb : a ∉ behind key (some (key last)) rest) :
    key a = key last := by
  rw [Sorted, ← List.take_append_drop limit rest, ht, List.pairwise_append] at hs
  have hle : (key last).rank ≤ (key a).rank := hs.2.2 last (by simp) a ha
  have hge : (key a).rank ≤ (key last).rank := by
    rw [mem_behind] at hb
    simpa [List.mem_of_mem_drop ha, PageKey.before_iff] using hb
  exact PageKey.rank_injective (le_antisymm hge hle)

lemma length_behind_last_lt (hs : Sorted key rest) (ht : rest.take limit = init ++ [last])
    (hl : 0 < limit) : (behind key (some (key last)) rest).length < rest.length := by
  have hne : rest ≠ [] := by
    rintro rfl
    simp at ht
  have hdrop := (behind_sublist key (some (key last)) (rest.drop limit)).length_le
  have hpos := List.length_pos_iff.2 hne
  rw [behind_last hs ht]
  rw [List.length_drop] at hdrop
  omega

end Behind

/-- The items on the pages, compared with the sorted items that were left before them: a part of
these, with every key among them, and all of them if the keys are distinct. -/
structure Passes (key : α → PageKey) (rest items : List α) : Prop where
  sublist : items.Sublist rest
  keys : ∀ a ∈ rest, key a ∈ items.map key
  all : (rest.map key).Nodup → items = rest

lemma Passes.refl (rest : List α) : Passes key rest rest :=
  ⟨.refl _, fun _ ha => List.mem_map_of_mem ha, fun _ => rfl⟩

lemma Passes.page {rest init items : List α} {last : α} {limit : ℕ} (hs : Sorted key rest)
    (ht : rest.take limit = init ++ [last])
    (h : Passes key (behind key (some (key last)) rest) items) :
    Passes key rest (rest.take limit ++ items) where
  sublist := by
    have hd : items.Sublist (rest.drop limit) := by
      refine h.sublist.trans ?_
      rw [behind_last hs ht]
      exact behind_sublist _ _ _
    simpa using (List.Sublist.refl (rest.take limit)).append hd
  keys a ha := by
    rw [List.map_append, List.mem_append]
    rw [← List.take_append_drop limit rest, List.mem_append] at ha
    rcases ha with ha | ha
    · exact .inl (List.mem_map_of_mem ha)
    · by_cases hb : a ∈ behind key (some (key last)) rest
      · exact .inr (h.keys a hb)
      · rw [key_eq_last hs ht ha hb]
        exact .inl (List.mem_map_of_mem (by simp [ht]))
  all hd := by
    have hb := behind_last_of_nodup hs hd ht
    rw [h.all (hb ▸ hd.sublist ((List.drop_sublist _ _).map key)), hb, List.take_append_drop]

/-- A page with positive limit, asked for behind a key: the last one, or one with a token. -/
lemma page_cases {v : View} {limit : ℕ} (hl : 0 < limit) (result : Scoped α)
    (after : Option PageKey) {rest : List α}
    (hr : behind key after (sort key result.items) = rest) :
    v.page key (request limit after) result =
        .ok ⟨result.items.length, rest, none, result.systems⟩ ∨
      ∃ init last, limit < rest.length ∧ rest.take limit = init ++ [last] ∧
        v.page key (request limit after) result =
          .ok ⟨result.items.length, rest.take limit, some (key last).token, result.systems⟩ := by
  rcases cut_cases key hl result.items.length rest with
    ⟨-, hc⟩ | ⟨init, last, hlt, ht, hc⟩
  · left
    simp [View.page, build_after hl, hr, hc, Except.map, withSystems]
  · right
    refine ⟨init, last, hlt, ht, ?_⟩
    simp [View.page, build_after hl, hr, hc, Except.map, withSystems]

theorem exists_walk (v : View) (key : α → PageKey) {limits : ℕ → ℕ} (hl : ∀ i, 0 < limits i)
    (result : Scoped α) (after : Option PageKey) :
    ∃ pages, Walk (asking (fun r => v.page key r result) limits) (after.map PageKey.token) pages ∧
      Regular limits result.items.length result.systems pages ∧
      Passes key (behind key after (sort key result.items)) (shown pages) := by
  -- Every page but the last leaves fewer items behind it than there were before it.
  generalize hrest : behind key after (sort key result.items) = rest
  induction hn : rest.length using Nat.strong_induction_on generalizing limits after rest with
  | _ n ih =>
    have hs : Sorted key rest := hrest ▸ (sorted_sort _).sublist (behind_sublist _ _ _)
    rcases page_cases (v := v) (hl 0) result after hrest with hp | ⟨init, last, hlt, ht, hp⟩
    · exact ⟨_, .one hp, .single, by simpa using Passes.refl rest⟩
    · have hlast : last ∈ rest := List.mem_of_mem_take (i := limits 0) (by simp [ht])
      have hle : ∀ k ∈ after, k.rank ≤ (key last).rank := fun k hk =>
        ((PageKey.before_iff _ _).1 ((mem_behind.1 (hrest ▸ hlast)).2 k hk)).le
      have hnext : behind key (some (key last)) (sort key result.items) =
          behind key (some (key last)) rest := by rw [← hrest, behind_behind hle]
      have hlen : (behind key (some (key last)) rest).length < n :=
        hn ▸ length_behind_last_lt hs ht (hl 0)
      obtain ⟨pages, hw, hr, hpass⟩ := @ih _ hlen (fun i => limits (i + 1))
        (fun i => hl (i + 1)) (some (key last)) _ hnext rfl
      refine ⟨_, .more hp rfl hw, hr.cons (List.length_pos_iff.1 hw.length_pos) ?_, ?_⟩
      · simpa using hlt.le
      · exact hpass.page hs ht

theorem exists_exhausts (v : View) (key : α → PageKey) {limits : ℕ → ℕ} (hl : ∀ i, 0 < limits i)
    (result : Scoped α) :
    ∃ pages, Exhausts (asking (fun r => v.page key r result) limits) limits result.items.length
        pages ∧ Passes key (sort key result.items) (shown pages) := by
  obtain ⟨pages, hw, hr, hpass⟩ := exists_walk v key hl result none
  rw [behind_none] at hpass
  exact ⟨pages, ⟨hw, fun other => hw.isBeginning hr.token_eq_none, _, hr⟩, hpass⟩

/-- A walk to the end shows all items in strict order just if no two of them share a key. -/
theorem Passes.perm_and_increasing_iff {items shown : List α}
    (h : Passes key (sort key items) shown) :
    shown.Perm items ∧ Increasing key shown ↔ (items.map key).Nodup := by
  constructor
  · rintro ⟨hp, hi⟩
    exact (hp.map key).nodup_iff.1 hi.nodup
  · intro hd
    have hds : ((sort key items).map key).Nodup := nodup_map_sort.2 hd
    rw [h.all hds]
    exact ⟨sort_perm _ _, (sorted_sort _).increasing hds⟩

end MissionCatalog.Page
