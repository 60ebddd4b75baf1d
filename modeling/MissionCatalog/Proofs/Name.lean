import Mathlib
import MissionCatalog.Name

/-!
# Qualified names as paths

A qualified name whose segments are valid names is the list of its segments. Qualifying a name
appends a segment, and one name lies under another just if its segments go on from those of the
other.
-/
namespace MissionCatalog.Name
open Text

/-- The characters of a qualified name: every segment with a slash in front. -/
def pathChars (segments : List String) : List Char := segments.flatMap fun s => '/' :: s.toList

/-- The qualified name with the given segments. -/
def ofSegments (segments : List String) : String := String.ofList (pathChars segments)

@[simp] lemma toList_ofSegments (segments : List String) :
    (ofSegments segments).toList = pathChars segments := by simp [ofSegments]

lemma ofSegments_eq_empty_iff {segments : List String} :
    ofSegments segments = "" ↔ segments = [] := by
  cases segments <;> simp [ofSegments, pathChars]

lemma isValid_iff {s : String} : isValid s ↔ s ≠ "" ∧ '/' ∉ s.toList := by simp [isValid]

def ValidSegments (segments : List String) : Prop := ∀ s ∈ segments, isValid s

lemma ValidSegments.append_singleton {segments : List String} {s : String} :
    ValidSegments (segments ++ [s]) ↔ ValidSegments segments ∧ isValid s := by
  simp [ValidSegments, or_imp, forall_and]

lemma pathChars_append (a b : List String) : pathChars (a ++ b) = pathChars a ++ pathChars b := by
  simp [pathChars]

/-- The text is empty or goes on with a slash. -/
def AtSlash (s : List Char) : Prop := ∀ c ∈ s.head?, c = '/'

lemma atSlash_pathChars (segments : List String) : AtSlash (pathChars segments) := by
  cases segments <;> simp [AtSlash, pathChars]

lemma segment_inj {s t : List Char} (hs : '/' ∉ s) (ht : '/' ∉ t) {x y : List Char}
    (hx : AtSlash x) (hy : AtSlash y) (h : s ++ x = t ++ y) : s = t ∧ x = y := by
  have hspan : ∀ {s x : List Char}, '/' ∉ s → AtSlash x → (s ++ x).takeWhile (· ≠ '/') = s := by
    intro s x hs hx
    rw [List.takeWhile_append_of_pos fun c hc => by
      simpa using fun he : c = '/' => hs (he ▸ hc)]
    cases x with
    | nil => simp
    | cons c x => simp [hx c rfl]
  have he : s = t := by rw [← hspan hs hx, h, hspan ht hy]
  subst he
  exact ⟨rfl, List.append_cancel_left h⟩

/-- Where one path is the beginning of a text that goes on with a slash, it is made of the first
segments of that text. -/
lemma prefix_of_pathChars {a b : List String} (ha : ValidSegments a) (hb : ValidSegments b)
    {rest : List Char} (hr : AtSlash rest) (h : pathChars a = pathChars b ++ rest) :
    ∃ c, a = b ++ c ∧ rest = pathChars c := by
  induction b generalizing a with
  | nil => exact ⟨a, rfl, by simpa [pathChars] using h.symm⟩
  | cons s b ih =>
    cases a with
    | nil => simp [pathChars] at h
    | cons t a =>
      have hs := (isValid_iff.1 (hb s (by simp))).2
      have ht := (isValid_iff.1 (ha t (by simp))).2
      have hbr : AtSlash (pathChars b ++ rest) := by
        intro c hc
        cases hp : pathChars b with
        | nil => exact hr c (by simpa [hp] using hc)
        | cons d ds => exact atSlash_pathChars b c (by simpa [hp] using hc)
      have hc : t.toList ++ pathChars a = s.toList ++ (pathChars b ++ rest) := by
        simpa [pathChars] using h
      obtain ⟨hst, hrest⟩ := segment_inj ht hs (atSlash_pathChars a) hbr hc
      obtain ⟨c, rfl, hrc⟩ := ih (fun x hx => ha x (by simp [hx])) (fun x hx => hb x (by simp [hx]))
        hrest
      exact ⟨c, by rw [String.toList_inj.1 hst]; rfl, hrc⟩

lemma pathChars_inj {a b : List String} (ha : ValidSegments a) (hb : ValidSegments b)
    (h : pathChars a = pathChars b) : a = b := by
  have hnil : AtSlash [] := by simp [AtSlash]
  obtain ⟨c, rfl, hc⟩ := prefix_of_pathChars ha hb hnil (by simpa using h)
  cases c with
  | nil => simp
  | cons s c => simp [pathChars] at hc

lemma ofSegments_inj {a b : List String} (ha : ValidSegments a) (hb : ValidSegments b) :
    ofSegments a = ofSegments b ↔ a = b := by
  refine ⟨fun h => pathChars_inj ha hb ?_, fun h => h ▸ rfl⟩
  simpa using congrArg String.toList h

lemma pathChars_ne_slash {segments : List String} (h : ValidSegments segments) :
    pathChars segments ≠ ['/'] := by
  cases segments with
  | nil => simp [pathChars]
  | cons s segments =>
    have hs := (isValid_iff.1 (h s (by simp))).1
    simp [pathChars, hs]

lemma ofSegments_ne_slash {segments : List String} (h : ValidSegments segments) :
    ofSegments segments ≠ "/" := by
  intro he
  exact pathChars_ne_slash h (by simpa using congrArg String.toList he)

lemma qualify_ofSegments {segments : List String} (h : ValidSegments segments) (name : String) :
    qualify (ofSegments segments) name = ofSegments (segments ++ [name]) := by
  apply String.toList_inj.1
  have hslash := ofSegments_ne_slash h
  rw [qualify]
  split
  · next hc =>
    have hnil : pathChars segments = [] := by
      simpa using congrArg String.toList (hc.resolve_right hslash)
    rw [toList_ofSegments, pathChars_append, hnil]
    simp [pathChars]
  · simp [pathChars]

lemma qualify_injective (system : String) : Function.Injective (qualify system) := by
  intro a b h
  rw [← String.toList_inj] at h ⊢
  simp only [qualify] at h
  split at h <;> simpa using h

lemma qualify_eq_append {system : String} (h : system ≠ "/") (name : String) :
    qualify system name = system ++ "/" ++ name := by
  rw [qualify]
  split
  · next hs =>
    rw [hs.resolve_right h]
    rfl
  · rfl

lemma qualify_ne_slash {name : String} (h : isValid name) (system : String) :
    qualify system name ≠ "/" := by
  intro heq
  have hname : name.toList ≠ [] := mt String.toList_eq_nil_iff.1 (isValid_iff.1 h).1
  have hpos := List.length_pos_of_ne_nil hname
  have hslash : "/".toList.length = 1 := rfl
  have hlength : (qualify system name).toList.length = 1 := by rw [heq, hslash]
  rw [qualify] at hlength
  split at hlength <;> simp only [String.toList_append, List.length_append, hslash] at hlength <;>
    omega

lemma exists_ofSegments_eq_append {a : List String} (ha : ValidSegments a) (hne : a ≠ []) :
    ∃ ns, ns ≠ "" ∧ ofSegments a = "/" ++ ns := by
  cases a with
  | nil => exact absurd rfl hne
  | cons s a =>
    have hs := (isValid_iff.1 (ha s (by simp))).1
    refine ⟨s ++ ofSegments a, by simp [hs], ?_⟩
    apply String.toList_inj.1
    simp [pathChars]

lemma ofSegments_ne_append {b : List String} (hb : ValidSegments b) (a : List String) :
    ofSegments b ≠ "/" ++ ofSegments a := by
  intro he
  have hc : pathChars b = '/' :: pathChars a := by simpa using congrArg String.toList he
  cases b with
  | nil => simp [pathChars] at hc
  | cons s b =>
    obtain ⟨hne, hs⟩ := isValid_iff.1 (hb s (by simp))
    have hs' : s.toList ++ pathChars b = pathChars a := by simpa [pathChars] using hc
    cases hl : s.toList with
    | nil => exact hne (by simpa using hl)
    | cons x xs =>
      have hx : x = '/' := atSlash_pathChars a x (by simp [← hs', hl])
      exact hs (by simp [hl, hx])

/-- Only the root registers its members under a namespace with a slash in front. -/
lemma canonicalNamespace_eq_append {a b : List String} (hb : ValidSegments b)
    (h : canonicalNamespace (ofSegments b) = "/" ++ ofSegments a) :
    ofSegments a = "" ∧ ofSegments b = "" := by
  rw [canonicalNamespace] at h
  split at h
  · next hroot =>
    have hc : '/' :: pathChars a = ['/'] := by simpa using (congrArg String.toList h).symm
    exact ⟨by simpa [ofSegments] using hc, hroot⟩
  · exact absurd h (ofSegments_ne_append hb a)

lemma splitLast_append_name {name : String} (hn : isValid name) (ns : String) :
    splitLast '/' (ns ++ "/" ++ name).toList = some (ns.toList, name.toList) := by
  have hpath : (ns ++ "/" ++ name).toList = ns.toList ++ '/' :: name.toList := by simp
  rw [hpath, splitLast_append (isValid_iff.1 hn).2]

/-- The name behind the last slash is taken off whatever stands before it. -/
lemma split?_append {name : String} (hn : isValid name) (ns : String) :
    split? (ns ++ "/" ++ name) = some (ns, name) := by
  have hnil : name.toList ≠ [] := by simpa using (isValid_iff.1 hn).1
  rw [split?, splitLast_append_name hn]
  cases hl : name.toList with
  | nil => exact absurd hl hnil
  | cons c cs => simp [← hl]

lemma lastSegment_append {name : String} (hn : isValid name) (ns : String) :
    lastSegment (ns ++ "/" ++ name) = name := by
  rw [lastSegment, splitLast_append_name hn]
  simp

lemma lastSegment_qualify {name : String} (hn : isValid name) (system : String) :
    lastSegment (qualify system name) = name := by
  unfold qualify
  split
  · simpa using lastSegment_append hn ""
  · exact lastSegment_append hn system

lemma trimEnd_of_getLast? {c : Char} {s : List Char} (h : ∀ x ∈ s.getLast?, x ≠ c) :
    trimEnd c s = s := by
  rw [← List.head?_reverse] at h
  rw [trimEnd]
  cases hr : s.reverse with
  | nil => simpa using hr
  | cons x xs =>
    have hx : (x == c) = false := by simpa using h x (by simp [hr])
    rw [List.dropWhile_cons, hx, ← hr]
    simp

lemma trimEnd_pathChars {segments : List String} (h : ValidSegments segments) :
    trimEnd '/' (pathChars segments) = pathChars segments := by
  refine trimEnd_of_getLast? fun x hx => ?_
  rcases List.eq_nil_or_concat segments with rfl | ⟨init, s, rfl⟩
  · simp [pathChars] at hx
  · obtain ⟨hne, hs⟩ := isValid_iff.1 (h s (by simp))
    have hnil : s.toList ≠ [] := by simpa using hne
    rw [List.concat_eq_append, pathChars_append, List.getLast?_append] at hx
    rintro rfl
    rw [show pathChars [s] = '/' :: s.toList by simp [pathChars],
      List.getLast?_cons_of_ne_nil hnil, List.getLast?_eq_getLast_of_ne_nil hnil] at hx
    have hlast : s.toList.getLast hnil = '/' := by simpa using hx
    exact hs (hlast ▸ List.getLast_mem hnil)

lemma afterStart?_eq_some {start s rest : List Char} :
    afterStart? start s = some rest ↔ s = start ++ rest := by
  rw [afterStart?]
  split
  · next h =>
    obtain ⟨t, rfl⟩ := List.isPrefixOf_iff_prefix.1 h
    simp [eq_comm]
  · next h =>
    simp only [reduceCtorEq, false_iff]
    rintro rfl
    exact h (by simp)

/-- One name lies under another just if its segments go on from those of the other. -/
theorem isUnder_ofSegments {a b : List String} (ha : ValidSegments a) (hb : ValidSegments b) :
    isUnder (ofSegments a) (ofSegments b) ↔ ∃ c, c ≠ [] ∧ a = b ++ c := by
  rw [isUnder]
  simp only [toList_ofSegments, trimEnd_pathChars hb]
  split
  · next hnil =>
    obtain rfl : b = [] := by
      cases b with
      | nil => rfl
      | cons s b => simp [pathChars] at hnil
    cases a <;> simp [pathChars]
  · constructor
    · intro h
      split at h
      · next x y rest hafter =>
        obtain ⟨c, rfl, hc⟩ := prefix_of_pathChars ha hb (by simp [AtSlash])
          (afterStart?_eq_some.1 hafter)
        exact ⟨c, by rintro rfl; simp [pathChars] at hc, rfl⟩
      · exact absurd h (by simp)
    · rintro ⟨c, hc, rfl⟩
      cases c with
      | nil => exact absurd rfl hc
      | cons s c =>
        have hs := (isValid_iff.1 (ha s (by simp))).1
        obtain ⟨x, y, hxy⟩ : ∃ x y, s.toList ++ pathChars c = x :: y := by
          cases hl : s.toList with
          | nil => exact absurd (by simpa using hl) hs
          | cons x y => exact ⟨x, y ++ pathChars c, rfl⟩
        have hafter : afterStart? (pathChars b) (pathChars (b ++ s :: c)) =
            some ('/' :: x :: y) := by
          rw [afterStart?_eq_some, pathChars_append, ← hxy]
          simp [pathChars]
        rw [hafter]
        rfl

/-- A name lies under another just if the space system that it stands in goes on from the other. -/
lemma isUnder_append_singleton {a b : List String} {name : String}
    (ha : ValidSegments (a ++ [name])) (hb : ValidSegments b) :
    isUnder (ofSegments (a ++ [name])) (ofSegments b) ↔ ∃ t, a = b ++ t := by
  rw [isUnder_ofSegments ha hb]
  constructor
  · rintro ⟨t, hne, ht⟩
    rcases List.eq_nil_or_concat t with rfl | ⟨t', n, rfl⟩
    · exact absurd rfl hne
    · rw [List.concat_eq_append, ← List.append_assoc] at ht
      exact ⟨t', (List.append_inj' ht rfl).1⟩
  · rintro ⟨t, rfl⟩
    exact ⟨t ++ [name], by simp, List.append_assoc _ _ _⟩

end MissionCatalog.Name
