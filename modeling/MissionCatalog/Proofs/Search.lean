import Mathlib
import MissionCatalog.Search

/-!
# What a query finds

The words of a query are matched whatever the case of their letters. `Query.Finds` and
`Query.FindsMember` say by substrings what the matcher of a query finds; a query is blank just if it
has no words, and then it finds everything but no members.
-/
namespace MissionCatalog

namespace Text

lemma words_aux_eq_nil_iff (s : List Char) :
    (s.foldr addToWords ([], [])).1 = [] ∧ (s.foldr addToWords ([], [])).2 = [] ↔
      ∀ c ∈ s, isBlank c := by
  induction s with
  | nil => simp
  | cons c s ih =>
    rw [List.foldr_cons, List.forall_mem_cons, ← ih]
    by_cases hc : isBlank c <;> cases h : (s.foldr addToWords ([], [])).1 <;>
      simp [addToWords, hc, h]

lemma words_eq_nil_iff (s : List Char) : words s = [] ↔ ∀ c ∈ s, isBlank c := by
  rw [← words_aux_eq_nil_iff, words]
  generalize s.foldr addToWords ([], []) = parts
  obtain ⟨_ | ⟨c, word⟩, rest⟩ := parts <;> simp

end Text

namespace Query
open Text

/-- The word stands somewhere in the text, whatever the case of the letters. -/
def WordIn (word : List Char) (text : String) : Prop := lower word <:+: lower text.toList

/-- Every word stands in the name, the description or the name of an alias. -/
def Finds (query : String) (h : Head) : Prop :=
  ∀ word ∈ words query.toList, WordIn word h.name ∨ (∃ text ∈ h.description, WordIn word text) ∨
    ∃ id ∈ h.aliases, WordIn word id.name

/-- Some word stands in the member's own name, and every word in the path to it. -/
def FindsMember (query : String) (name : String) (path : MemberPath) : Prop :=
  (∃ word ∈ words query.toList, WordIn word name) ∧
    ∀ word ∈ words query.toList, WordIn word path.text

end Query

namespace Matcher
open Text Query

lemma isEmpty_ofQuery (query : String) :
    (ofQuery query).isEmpty ↔ ∀ c ∈ query.toList, isBlank c := by
  rw [isEmpty, ofQuery, List.isEmpty_map, List.isEmpty_iff, words_eq_nil_iff]

lemma inHead_ofQuery (query : String) (h : Head) : (ofQuery query).inHead h ↔ Finds query h := by
  simp [inHead, ofQuery, Finds, WordIn, occurs_iff]

lemma inMember_ofQuery (query name : String) (path : MemberPath) :
    (ofQuery query).inMember name path ↔ FindsMember query name path := by
  simp [inMember, someInText, inText, ofQuery, FindsMember, WordIn, occurs_iff]

def select (m : Matcher) (members : List (String × MemberPath)) : List MemberPath :=
  (members.filter fun (name, path) => m.inMember name path).map (·.2)

lemma membersOf_eq_select (m : Matcher) (t : DataType) :
    m.membersOf t = m.select (t.namedMembers []) := by
  rw [membersOf]
  split
  · next h =>
    have hterms : m.terms = [] := by simpa [isEmpty] using h
    simp [select, inMember, someInText, hterms]
  · rfl

end Matcher

end MissionCatalog
