import MissionCatalog.Proofs.MemberPath.Existence
import MissionCatalog.Proofs.MemberPath.Walk

/-!
# Members that their path leads back to

Looking up a path takes one array for all subscripts of an element, and the first member of a name.
So it finds just the places that steps of this kind lead to: those that pass no array directly
inside another, and none without dimensions.
-/
namespace MissionCatalog

namespace TypeStep

/-- The type that a step leads to. Among members of one name it is the first that counts. -/
def type? (t : DataType) : TypeStep → Option DataType
  | member name => (t.member? name).map (·.type)
  | items dimensions =>
    match t with
    | .array d element => if d = dimensions then some element else none
    | _ => none

def IsItems : TypeStep → Prop
  | member _ => False
  | items _ => True

/-- Every array on the way takes a subscript, and none stands directly inside another. -/
structure Addressable (steps : List TypeStep) : Prop where
  subscripted : ∀ dimensions, items dimensions ∈ steps → dimensions ≠ 0
  apart : steps.IsChain fun s r => ¬(s.IsItems ∧ r.IsItems)

end TypeStep

namespace DataType
open TypeStep

/-- The type that the steps lead to, through the first members of their names. -/
def follow? (t : DataType) (steps : List TypeStep) : Option DataType := steps.foldlM type? t

/-- No aggregate inside the type has two members of one name. -/
def HasDistinctNames (t : DataType) : Prop :=
  ∀ steps members, t.Leads steps (.aggregate members) → (members.map (·.name)).Nodup

end DataType

namespace TypeStep

variable {steps : List TypeStep} {name : String} {dimensions : UInt64}

lemma addressable_nil : Addressable [] := ⟨by simp, .nil⟩

lemma addressable_member_cons : Addressable (member name :: steps) ↔ Addressable steps := by
  constructor
  · rintro ⟨hsub, hapart⟩
    exact ⟨fun d hd => hsub d (List.mem_cons_of_mem _ hd), hapart.tail⟩
  · rintro ⟨hsub, hapart⟩
    refine ⟨by simpa using hsub, ?_⟩
    rw [List.isChain_cons]
    exact ⟨fun s _ h => h.1, hapart⟩

lemma addressable_items_cons : Addressable (items dimensions :: steps) ↔
    dimensions ≠ 0 ∧ (∀ s ∈ steps.head?, ¬s.IsItems) ∧ Addressable steps := by
  constructor
  · rintro ⟨hsub, hapart⟩
    rw [List.isChain_cons] at hapart
    exact ⟨hsub _ (by simp), fun s hs hi => hapart.1 s hs ⟨trivial, hi⟩,
      fun d hd => hsub d (List.mem_cons_of_mem _ hd), hapart.2⟩
  · rintro ⟨hpos, hhead, hsub, hapart⟩
    refine ⟨fun d hd => ?_, ?_⟩
    · rcases List.mem_cons.1 hd with hd | hd
      · obtain rfl := items.inj hd
        exact hpos
      · exact hsub d hd
    · rw [List.isChain_cons]
      exact ⟨fun s hs h => hhead s hs h.2, hapart⟩

end TypeStep

namespace MemberPath
open TypeStep

/-- The type that the steps lead to after the subscripts of an element whose name has led to `t`. -/
def typeBehind? (index : List Subscript) (steps : List TypeStep) (t : DataType) : Option DataType :=
  typeAt? ⟨steps.foldl extend [⟨none, index⟩]⟩ t

lemma typeBehind?_nil (index : List Subscript) (t : DataType) :
    typeBehind? index [] t = stepType? ⟨none, index⟩ t := by
  rw [typeBehind?, List.foldl_nil, typeAt?_cons]
  exact Option.bind_fun_some _

lemma typeBehind?_items (index : List Subscript) (dimensions : UInt64) (steps : List TypeStep)
    (t : DataType) : typeBehind? index (.items dimensions :: steps) t =
      typeBehind? (index ++ List.replicate dimensions.toNat .any) steps t := rfl

lemma typeAt?_named (name : String) (index : List Subscript) (steps : List TypeStep)
    (t : DataType) : typeAt? ⟨steps.foldl extend [⟨some name, index⟩]⟩ t =
      (t.member? name).bind fun m => typeBehind? index steps m.type := by
  obtain ⟨index', elements, h⟩ := exists_foldl_extend index steps
  simp only [typeBehind?, h, typeAt?_cons, stepType?_named, Option.bind_assoc]

lemma typeBehind?_member (index : List Subscript) (name : String) (steps : List TypeStep)
    (t : DataType) : typeBehind? index (.member name :: steps) t =
      (stepType? ⟨none, index⟩ t).bind fun u => (u.member? name).bind fun m =>
        typeBehind? [] steps m.type := by
  simp only [← typeAt?_named]
  rw [← typeAt?_cons, typeBehind?, List.foldl_cons]
  exact congrArg (fun es => typeAt? ⟨es⟩ t) (foldl_extend_cons (List.cons_ne_nil _ _) steps)

/-- At the start of a path no element stands before the steps, as if one had been read already. -/
lemma typeAt?_ofSteps (steps : List TypeStep) (t : DataType) :
    (ofSteps steps).typeAt? t = typeBehind? [] steps t := by
  match steps with
  | [] => simp [typeBehind?_nil, ofSteps, typeAt?, stepType?]
  | .member name :: steps =>
    rw [typeBehind?_member]
    exact (typeAt?_named name [] steps t).trans (by simp [stepType?])
  | .items dimensions :: steps => rfl

/-- Subscripts that reach an array of no dimensions, or all of one whose items are an array, lead to
no type that has a member, however many follow. -/
def Stuck (index : List Subscript) (t : DataType) : Prop :=
  ∃ dimensions element, t = .array dimensions element ∧ dimensions.toNat ≤ index.length ∧
    (dimensions = 0 ∨ ∃ d u, element = .array d u)

lemma Stuck.append {index : List Subscript} {t : DataType} (h : Stuck index t)
    (more : List Subscript) : Stuck (index ++ more) t := by
  obtain ⟨dimensions, element, rfl, hle, hstuck⟩ := h
  exact ⟨dimensions, element, rfl, by rw [List.length_append]; omega, hstuck⟩

lemma Stuck.stepType?_bind_member? {index : List Subscript} {t : DataType} (h : Stuck index t)
    (name : String) : (stepType? ⟨none, index⟩ t).bind (·.member? name) = none := by
  obtain ⟨dimensions, element, rfl, hle, hstuck⟩ := h
  cases index with
  | nil => rfl
  | cons s index =>
    by_cases hd : dimensions.toNat = index.length + 1
    · obtain rfl | ⟨d, u, rfl⟩ := hstuck
      · simp at hd
      · simp [stepType?, hd, DataType.member?]
    · simp [stepType?, hd]

lemma Stuck.typeBehind?_eq_none {index : List Subscript} {t : DataType} (h : Stuck index t)
    {steps : List TypeStep} {name : String} (hlast : steps.getLast? = some (.member name)) :
    typeBehind? index steps t = none := by
  induction steps generalizing index with
  | nil => simp at hlast
  | cons s steps ih =>
    cases s with
    | member n =>
      rw [typeBehind?_member, ← Option.bind_assoc, h.stepType?_bind_member?]
      rfl
    | items dimensions =>
      cases steps with
      | nil => simp at hlast
      | cons r steps =>
        rw [typeBehind?_items]
        exact ih (h.append _) (by rwa [List.getLast?_cons_cons] at hlast)

lemma stepType?_array {dimensions : UInt64} (h : dimensions ≠ 0) (element : DataType) :
    stepType? ⟨none, List.replicate dimensions.toNat .any⟩ (.array dimensions element) =
      some element := by
  have hpos : dimensions.toNat ≠ 0 := fun h0 => h (UInt64.toNat_inj.1 h0)
  simp [stepType?, hpos]

variable {steps : List TypeStep} {t u : DataType}

lemma follow?_member {name : String} : t.follow? (.member name :: steps) =
    (t.member? name).bind fun m => m.type.follow? steps := by
  rw [DataType.follow?, List.foldlM_cons, type?]
  cases t.member? name <;> rfl

lemma follow?_items_eq_some {dimensions : UInt64} :
    t.follow? (.items dimensions :: steps) = some u ↔
      ∃ element, t = .array dimensions element ∧ element.follow? steps = some u := by
  rw [DataType.follow?, List.foldlM_cons]
  cases t with
  | array d element =>
    by_cases hd : d = dimensions
    · subst hd
      simp [type?, DataType.follow?]
    · simp [type?, hd]
  | _ => simp [type?]

/-- Behind an array whose items are of no array type the path goes on as from these items. -/
lemma typeBehind?_items_member {dimensions : UInt64} (hd : dimensions ≠ 0) (element : DataType)
    (name : String) (steps : List TypeStep) :
    typeBehind? [] (.items dimensions :: .member name :: steps) (.array dimensions element) =
      typeBehind? [] (.member name :: steps) element := by
  rw [typeBehind?_items, typeBehind?_member, typeBehind?_member, List.nil_append,
    stepType?_array hd]
  rfl

lemma typeBehind?_of_addressable : ∀ {steps : List TypeStep} {t u : DataType},
    t.follow? steps = some u → Addressable steps → typeBehind? [] steps t = some u
  | [], t, u, h, _ => by simpa [typeBehind?_nil, stepType?, DataType.follow?] using h
  | .member name :: steps, t, u, h, ha => by
    rw [follow?_member] at h
    obtain ⟨m, hm, hrest⟩ := Option.bind_eq_some_iff.1 h
    have ih := typeBehind?_of_addressable hrest (addressable_member_cons.1 ha)
    simp [typeBehind?_member, stepType?, hm, ih]
  | [.items dimensions], t, u, h, ha => by
    obtain ⟨element, rfl, hrest⟩ := follow?_items_eq_some.1 h
    obtain ⟨hd, -, -⟩ := addressable_items_cons.1 ha
    rw [typeBehind?_items, typeBehind?_nil, List.nil_append, stepType?_array hd]
    exact hrest
  | .items dimensions :: .member name :: steps, t, u, h, ha => by
    obtain ⟨element, rfl, hrest⟩ := follow?_items_eq_some.1 h
    obtain ⟨hd, -, ha⟩ := addressable_items_cons.1 ha
    rw [typeBehind?_items_member hd]
    exact typeBehind?_of_addressable hrest ha
  | .items _ :: .items _ :: _, _, _, _, ha => by
    obtain ⟨-, hapart, -⟩ := addressable_items_cons.1 ha
    exact absurd trivial (hapart _ rfl)

lemma addressable_of_typeBehind? {name : String} : ∀ {steps : List TypeStep} {t u v : DataType},
    t.follow? steps = some u → steps.getLast? = some (.member name) →
      typeBehind? [] steps t = some v → Addressable steps
  | [], _, _, _, _, _, _ => addressable_nil
  | [.member _], _, _, _, _, _, _ => addressable_member_cons.2 addressable_nil
  | .member n :: s :: steps, t, u, v, h, hlast, hv => by
    rw [follow?_member] at h
    obtain ⟨m, hm, hrest⟩ := Option.bind_eq_some_iff.1 h
    rw [List.getLast?_cons_cons] at hlast
    refine addressable_member_cons.2 (addressable_of_typeBehind? hrest hlast (v := v) ?_)
    simpa [typeBehind?_member, stepType?, hm] using hv
  | [.items _], _, _, _, _, hlast, _ => by simp at hlast
  | .items dimensions :: .member n :: steps, t, u, v, h, hlast, hv => by
    obtain ⟨element, rfl, hrest⟩ := follow?_items_eq_some.1 h
    rw [List.getLast?_cons_cons] at hlast
    have hd : dimensions ≠ 0 := by
      rintro rfl
      have hstuck : Stuck [] (.array 0 element) := ⟨0, element, rfl, by simp, .inl rfl⟩
      rw [typeBehind?_items, (hstuck.append _).typeBehind?_eq_none hlast] at hv
      cases hv
    rw [typeBehind?_items_member hd] at hv
    exact addressable_items_cons.2 ⟨hd, by simp [IsItems],
      addressable_of_typeBehind? hrest hlast hv⟩
  | .items dimensions :: .items d :: steps, t, u, v, h, hlast, hv => by
    obtain ⟨element, rfl, hrest⟩ := follow?_items_eq_some.1 h
    obtain ⟨item, rfl, -⟩ := follow?_items_eq_some.1 hrest
    rw [List.getLast?_cons_cons] at hlast
    have hstuck : Stuck (List.replicate dimensions.toNat .any)
        (.array dimensions (.array d item)) := ⟨dimensions, _, rfl, by simp, .inr ⟨d, item, rfl⟩⟩
    rw [typeBehind?_items, List.nil_append, hstuck.typeBehind?_eq_none hlast] at hv
    cases hv

lemma stepType?_index_eq_some {index : List Subscript} (hany : ∀ s ∈ index, s = .any)
    {t u : DataType} (h : stepType? ⟨none, index⟩ t = some u) :
    index = [] ∧ t = u ∨ ∃ dimensions, dimensions ≠ 0 ∧
      index = List.replicate dimensions.toNat .any ∧ t = .array dimensions u := by
  cases index with
  | nil => exact .inl ⟨rfl, by simpa [stepType?] using h⟩
  | cons s index =>
    cases t with
    | array dimensions element =>
      obtain ⟨hlength, rfl⟩ : dimensions.toNat = index.length + 1 ∧ element = u := by
        simpa [stepType?] using h
      refine .inr ⟨dimensions, ?_, ?_, rfl⟩
      · rintro rfl
        simp at hlength
      · exact List.eq_replicate_iff.2 ⟨hlength.symm, hany⟩
    | _ => simp [stepType?] at h

lemma exists_addressable {elements : List PathElement} {names : List String}
    (hnames : elements.map (·.name) = names.map some) (hopen : AreOpen elements) {t u : DataType}
    (h : typeAt? ⟨elements⟩ t = some u) :
    ∃ steps, Addressable steps ∧ (∀ s ∈ steps.head?, ¬s.IsItems) ∧ t.follow? steps = some u ∧
      ∀ before, steps.foldl extend before = before ++ elements := by
  induction elements generalizing t names with
  | nil =>
    obtain rfl : t = u := by simpa [typeAt?] using h
    exact ⟨[], addressable_nil, by simp, rfl, by simp⟩
  | cons e elements ih =>
    obtain ⟨name, names, rfl, hname, hothers⟩ := List.map_eq_cons_iff.1 hnames.symm
    obtain ⟨hindex, hrestopen⟩ := List.forall_mem_cons.1 hopen
    obtain ⟨_, index⟩ := e
    obtain rfl := hname
    rw [typeAt?_cons, stepType?_named] at h
    obtain ⟨v, hv, hrest⟩ := Option.bind_eq_some_iff.1 h
    obtain ⟨m, hm, hv⟩ := Option.bind_eq_some_iff.1 hv
    obtain ⟨steps, ha, hhead, hfollow, hspell⟩ := ih hothers.symm hrestopen hrest
    obtain ⟨rfl, rfl⟩ | ⟨dimensions, hd, rfl, harray⟩ := stepType?_index_eq_some hindex hv
    · refine ⟨.member name :: steps, addressable_member_cons.2 ha, by simp [IsItems], ?_, ?_⟩
      · rw [follow?_member, hm, Option.bind_some, hfollow]
      · intro before
        rw [List.foldl_cons, hspell, extend, List.append_assoc, List.singleton_append]
    · refine ⟨.member name :: .items dimensions :: steps, ?_, by simp [IsItems], ?_, ?_⟩
      · exact addressable_member_cons.2 (addressable_items_cons.2 ⟨hd, hhead, ha⟩)
      · rw [follow?_member, hm, Option.bind_some]
        exact follow?_items_eq_some.2 ⟨v, harray, hfollow⟩
      · intro before
        have hlast : (TypeStep.items dimensions).extend (before ++ [⟨some name, []⟩]) =
            before ++ [⟨some name, List.replicate dimensions.toNat .any⟩] :=
          subscriptLast_append _ before _
        rw [List.foldl_cons, List.foldl_cons, extend, hlast, hspell, List.append_assoc,
          List.singleton_append]

/-- In an array the first element of a path has subscripts only, and the path is spelled by a step
into the array and the steps of the other elements. -/
lemma exists_addressable_items {index : List Subscript} {elements : List PathElement}
    {names : List String} (hne : names ≠ []) (hnames : elements.map (·.name) = names.map some)
    (hopen : AreOpen (⟨none, index⟩ :: elements)) {d : UInt64} {element u : DataType}
    (h : typeAt? ⟨⟨none, index⟩ :: elements⟩ (.array d element) = some u) :
    ∃ steps, Addressable steps ∧ (DataType.array d element).follow? steps = some u ∧
      ofSteps steps = ⟨⟨none, index⟩ :: elements⟩ := by
  obtain ⟨hindex, hrestopen⟩ := List.forall_mem_cons.1 hopen
  rw [typeAt?_cons] at h
  obtain ⟨v, hv, hrest⟩ := Option.bind_eq_some_iff.1 h
  obtain ⟨rfl, rfl⟩ | ⟨dimensions, hd, rfl, harray⟩ := stepType?_index_eq_some hindex hv
  · -- Without subscripts the path goes on with a member, and an array has none.
    obtain ⟨name, names, rfl⟩ := List.exists_cons_of_ne_nil hne
    obtain ⟨⟨_, index⟩, elements, rfl, rfl, -⟩ := List.map_eq_cons_iff.1 hnames
    simp [typeAt?_cons, stepType?_named, DataType.member?] at hrest
  · obtain ⟨steps, ha, hhead, hfollow, hspell⟩ := exists_addressable hnames hrestopen hrest
    exact ⟨.items dimensions :: steps, addressable_items_cons.2 ⟨hd, hhead, ha⟩,
      follow?_items_eq_some.2 ⟨v, harray, hfollow⟩, congrArg MemberPath.mk (hspell _)⟩

lemma fits_ofSteps_iff {steps : List TypeStep} {t u : DataType} {name : String}
    (leads : t.Leads steps u) (hlast : steps.getLast? = some (.member name)) :
    (ofSteps steps).fits t ↔ ∃ others v, t.follow? others = some v ∧ Addressable others ∧
      ofSteps others = ofSteps steps := by
  rw [fits, Option.isSome_iff_exists]
  constructor
  · rintro ⟨v, hv⟩
    have hnames := map_name_ofSteps steps
    have hopen := areOpen_ofSteps steps
    have hne : steps.filterMap name? ≠ [] :=
      List.ne_nil_of_mem (List.mem_filterMap.2 ⟨_, List.mem_of_getLast? hlast, rfl⟩)
    cases leads with
    | here => simp at hlast
    | member hm hrest =>
      obtain ⟨others, ha, -, hfollow, hspell⟩ := exists_addressable hnames hopen hv
      exact ⟨others, v, hfollow, ha, congrArg MemberPath.mk (hspell [])⟩
    | @items dimensions element _ rest hrest =>
      generalize ofSteps (.items dimensions :: rest) = path at hv hnames hopen ⊢
      obtain ⟨⟨_, index⟩, elements, helements, rfl, hothers⟩ := List.map_eq_cons_iff.1 hnames
      obtain rfl : path = ⟨⟨none, index⟩ :: elements⟩ := congrArg MemberPath.mk helements
      obtain ⟨others, ha, hfollow, hspell⟩ := exists_addressable_items hne hothers hopen hv
      exact ⟨others, v, hfollow, ha, hspell⟩
  · rintro ⟨others, v, hfollow, ha, hspell⟩
    rw [← hspell, typeAt?_ofSteps]
    exact ⟨v, typeBehind?_of_addressable hfollow ha⟩

/-- Steps to a member that lead on through the first members of their names spell a path that fits
just if they are addressable. -/
lemma fits_ofSteps_iff_addressable {steps : List TypeStep} {t u : DataType} {name : String}
    (hfollow : t.follow? steps = some u) (hlast : steps.getLast? = some (.member name)) :
    (ofSteps steps).fits t ↔ Addressable steps := by
  rw [fits, Option.isSome_iff_exists, typeAt?_ofSteps]
  constructor
  · rintro ⟨v, hv⟩
    exact addressable_of_typeBehind? hfollow hlast hv
  · intro ha
    exact ⟨u, typeBehind?_of_addressable hfollow ha⟩

/-- The path differs from the other only in that it has indices for all its subscripts. -/
def Fills (q p : MemberPath) : Prop :=
  List.Forall₂ (fun e f : PathElement =>
    e.name = f.name ∧ e.index.length = f.index.length ∧ .any ∉ e.index) q.elements p.elements

lemma stepType?_congr {e f : PathElement} (hname : e.name = f.name)
    (hlength : e.index.length = f.index.length) (t : DataType) : stepType? e t = stepType? f t := by
  have hempty : e.index.isEmpty = f.index.isEmpty := by
    rw [Bool.eq_iff_iff, List.isEmpty_iff_length_eq_zero, hlength, List.isEmpty_iff_length_eq_zero]
  rw [stepType?, stepType?, hname, hlength, hempty]

lemma Fills.typeAt?_eq {q p : MemberPath} (h : q.Fills p) (t : DataType) :
    q.typeAt? t = p.typeAt? t := by
  obtain ⟨es⟩ := q
  obtain ⟨fs⟩ := p
  replace h : List.Forall₂ _ es fs := h
  induction h generalizing t with
  | nil => rfl
  | cons hstep _ ih =>
    rw [typeAt?_cons, typeAt?_cons, stepType?_congr hstep.1 hstep.2.1]
    exact congrArg _ (funext ih)

lemma Fills.fits_eq {q p : MemberPath} (h : q.Fills p) (t : DataType) : q.fits t = p.fits t := by
  rw [fits, fits, h.typeAt?_eq]

end MemberPath

namespace DataType

variable {t u : DataType} {steps : List TypeStep}

lemma find?_eq_some_iff_of_unique {β : Type} {items : List β} {p : β → Bool}
    (h : ∀ a ∈ items, ∀ b ∈ items, p a → p b → a = b) {e : β} :
    items.find? p = some e ↔ e ∈ items ∧ p e := by
  refine ⟨fun hf => ⟨List.mem_of_find?_eq_some hf, List.find?_some hf⟩, fun ⟨he, hp⟩ => ?_⟩
  cases hf : items.find? p with
  | none => exact absurd hp (List.find?_eq_none.1 hf e he)
  | some a => rw [h a (List.mem_of_find?_eq_some hf) e he (List.find?_some hf) hp]

lemma member?_of_nodup {members : List Member} {m : Member} (h : (members.map (·.name)).Nodup)
    (hm : m ∈ members) : (aggregate members).member? m.name = some m := by
  rw [member?, find?_eq_some_iff_of_unique]
  · simp [hm]
  · intro a ha b hb hpa hpb
    simp only [decide_eq_true_eq] at hpa hpb
    exact List.inj_on_of_nodup_map h ha hb (hpa.trans hpb.symm)

lemma follow?_of_leads (h : t.HasDistinctNames) (leads : t.Leads steps u) :
    t.follow? steps = some u := by
  induction leads with
  | here => rfl
  | member hm hrest ih =>
    rw [MemberPath.follow?_member, member?_of_nodup (h [] _ .here) hm]
    exact ih fun steps members hl => h _ members (.member hm hl)
  | items hrest ih =>
    exact MemberPath.follow?_items_eq_some.2
      ⟨_, rfl, ih fun steps members hl => h _ members (.items hl)⟩

end DataType

end MissionCatalog
