import MissionCatalog.Http.Address
import MissionCatalog.Proofs.Json.Record
import MissionCatalog.Proofs.PageKey
import MissionCatalog.Proofs.Text

/-!
# Continuation tokens

A token is an envelope of a page key, written as JSON and then in base 64. Here it is shown which
texts are read as a token of which key, and that the tokens which are handed out are among these and
pass through an address unchanged.
-/
namespace MissionCatalog

namespace Http

open Text

lemma percentDecode_of_plain {bytes : List UInt8} (h : ∀ b ∈ bytes, b ≠ 0x25) :
    percentDecode bytes = bytes := by
  fun_induction percentDecode bytes with
  | case1 => rfl
  | case2 a => rfl
  | case3 a b => rfl
  | case4 a b c rest byte hbyte ih =>
    have ha : a ≠ 0x25 := h a (by simp)
    simp [ha] at hbyte
  | case5 a b c rest hnone ih => rw [ih fun x hx => h x (List.mem_cons_of_mem _ hx)]

/-- A query hands over a text as it is, if all of it is ASCII and nothing in it a plus or a percent
sign. -/
lemma formText_of_plain {s : List Char} (ascii : ∀ c ∈ s, c.toNat < 0x80)
    (plain : ∀ c ∈ s, c ≠ '+' ∧ c ≠ '%') : formText s = String.ofList s := by
  have hblanks : s.map (fun c => if c = '+' then ' ' else c) = s := by
    refine (List.map_congr_left fun c hc => ?_).trans (List.map_id s)
    exact if_neg (plain c hc).1
  have hbytes : ∀ b ∈ s.map Char.toUInt8, b ≠ 0x25 := by
    simp only [List.forall_mem_map]
    intro c hc hb
    have hcode : c.toNat = '%'.toNat := by
      rw [← toNat_toUInt8_of_ascii (ascii c hc), hb]
      rfl
    exact (plain c hc).2 (Char.toNat_inj.1 hcode)
  rw [formText, hblanks, toBytes_ofList_of_ascii ascii, percentDecode_of_plain hbytes, ofBytesLossy,
    ofBytesAround, readAround_of_ascii ascii]

end Http

namespace PageKey

open Text Json

/-- The values that a field for the path may have, where it may also be missing. -/
def pathValues : Option String → List (List Json)
  | none => [[], [.null]]
  | some path => [[.string path]]

/-- The JSON value is an envelope of the version 1 that names the key: an object with the fields of
an envelope among others, each once, or the list of their values. -/
inductive IsEnvelope (k : PageKey) : Json → Prop
  | object {fields : Json.Fields} (version : valuesOf fields "v" = [.int 1])
      (name : valuesOf fields "name" = [.string k.name])
      (path : valuesOf fields "path" ∈ pathValues k.path) : IsEnvelope k (.object fields)
  | array {path : List Json} (path_mem : path ∈ pathValues k.path) :
      IsEnvelope k (.array (.int 1 :: .string k.name :: path))

lemma optional_asString_eq_ok {fs : Json.Fields} {key : String} {path : Option String} :
    fs.optional key asString = .ok path ↔ (fs.lookup key).toList ∈ pathValues path := by
  rw [Fields.optional, Fields.withDefault]
  cases fs.lookup key with
  | none => cases path <;> simp [pathValues]
  | some j => cases j <;> cases path <;> simp [asOption, asString, Except.map, pathValues]

lemma ofJson_eq_ok {j : Json} {k : PageKey} : ofJson j = .ok (tokenVersion, k) ↔
    ∃ fs, j.asRecord ["v", "name", "path"] = .ok fs ∧ fs.lookup "v" = some (.int 1) ∧
      fs.lookup "name" = some (.string k.name) ∧
      (fs.lookup "path").toList ∈ pathValues k.path := by
  have hversion : ∀ fs : Json.Fields, fs.required "v" (asNat UInt32.size) = .ok tokenVersion ↔
      fs.lookup "v" = some (.int 1) := fun fs => by
    simp [required_eq_ok, asNat_eq_ok, tokenVersion, UInt32.size]
  have hnamed : ∀ fs : Json.Fields, fs.required "name" asString = .ok k.name ↔
      fs.lookup "name" = some (.string k.name) := fun fs => by
    simp [required_eq_ok, asString_eq_ok]
  simp only [← hversion, ← hnamed, ← optional_asString_eq_ok, ofJson]
  constructor
  · intro h
    obtain ⟨fs, hfs, h⟩ := bind_eq_ok.1 h
    obtain ⟨w, hv, h⟩ := bind_eq_ok.1 h
    obtain ⟨name, hname, h⟩ := bind_eq_ok.1 h
    obtain ⟨path, hpath, h⟩ := bind_eq_ok.1 h
    obtain ⟨rfl, rfl⟩ := Prod.mk.inj (Except.ok.inj h)
    exact ⟨fs, hfs, hv, hname, hpath⟩
  · rintro ⟨fs, hfs, hv, hname, hpath⟩
    exact bind_eq_ok.2 ⟨fs, hfs, bind_eq_ok.2 ⟨_, hv, bind_eq_ok.2 ⟨_, hname,
      bind_eq_ok.2 ⟨_, hpath, rfl⟩⟩⟩⟩

lemma length_of_mem_pathValues {path : Option String} {values : List Json}
    (h : values ∈ pathValues path) : values.length ≤ 1 := by
  cases path with
  | none =>
    have hvalues : values = [] ∨ values = [.null] := by simpa [pathValues] using h
    rcases hvalues with rfl | rfl <;> simp
  | some path =>
    obtain rfl : values = [.string path] := by simpa [pathValues] using h
    simp

lemma toList_head?_of_length_le_one {α : Type} {as : List α} (h : as.length ≤ 1) :
    as.head?.toList = as := by
  match as, h with
  | [], _ => rfl
  | [a], _ => rfl

lemma isEnvelope_object_iff {fields : Json.Fields} {k : PageKey} :
    IsEnvelope k (.object fields) ↔
      (∀ key ∈ ["v", "name", "path"], (valuesOf fields key).length ≤ 1) ∧
        (valuesOf fields "v").head? = some (.int 1) ∧
        (valuesOf fields "name").head? = some (.string k.name) ∧
        (valuesOf fields "path").head?.toList ∈ pathValues k.path := by
  constructor
  · rintro ⟨hv, hname, hpath⟩
    have hone := length_of_mem_pathValues hpath
    refine ⟨by simp [hv, hname, hone], by simp [hv], by simp [hname], ?_⟩
    rwa [toList_head?_of_length_le_one hone]
  · rintro ⟨hone, hv, hname, hpath⟩
    have hone : ∀ key ∈ ["v", "name", "path"], (valuesOf fields key).head?.toList =
        valuesOf fields key := fun key hkey => toList_head?_of_length_le_one (hone key hkey)
    refine .object ?_ ?_ ?_
    · rw [← hone "v" (by simp), hv, Option.toList_some]
    · rw [← hone "name" (by simp), hname, Option.toList_some]
    · rwa [← hone "path" (by simp)]

lemma isEnvelope_array_iff {items : List Json} {k : PageKey} :
    IsEnvelope k (.array items) ↔
      items.length ≤ 3 ∧ (["v", "name", "path"].zip items).lookup "v" = some (.int 1) ∧
        (["v", "name", "path"].zip items).lookup "name" = some (.string k.name) ∧
        ((["v", "name", "path"].zip items).lookup "path").toList ∈ pathValues k.path := by
  match items with
  | [] => exact iff_of_false (by rintro ⟨⟩) (by simp)
  | [v] => exact iff_of_false (by rintro ⟨⟩) (by simp [List.lookup_cons])
  | v :: name :: path =>
    have hpath : (["path"].zip path).lookup "path" = path.head? := by cases path <;> simp
    simp only [List.zip_cons_cons, List.lookup_cons, BEq.rfl, Option.some.injEq, hpath,
      List.length_cons, String.reduceBEq]
    constructor
    · rintro (_ | ⟨hpath⟩)
      have hone := length_of_mem_pathValues hpath
      exact ⟨by omega, rfl, rfl, by rwa [toList_head?_of_length_le_one hone]⟩
    · rintro ⟨hone, rfl, rfl, hpath⟩
      rw [toList_head?_of_length_le_one (by omega)] at hpath
      exact .array hpath

theorem ofJson_eq_ok_iff {j : Json} {k : PageKey} :
    ofJson j = .ok (tokenVersion, k) ↔ IsEnvelope k j := by
  rw [ofJson_eq_ok]
  cases j with
  | object fields =>
    simp only [asRecord_object_eq_ok, isEnvelope_object_iff]
    constructor
    · rintro ⟨_, ⟨rfl, hone⟩, hfields⟩
      simp only [lookup_filter, List.mem_cons, true_or, or_true] at hfields
      exact ⟨hone, hfields⟩
    · rintro ⟨hone, hfields⟩
      refine ⟨_, ⟨rfl, hone⟩, ?_⟩
      simp only [lookup_filter, List.mem_cons, true_or, or_true]
      exact hfields
  | array items =>
    rw [isEnvelope_array_iff]
    constructor
    · rintro ⟨fs, hfs, hfields⟩
      rw [asRecord] at hfs
      split at hfs
      · next hlength =>
        obtain rfl := Except.ok.inj hfs
        exact ⟨hlength, hfields⟩
      · simp at hfs
    · rintro ⟨hlength, hfields⟩
      exact ⟨_, if_pos hlength, hfields⟩
  | _ => exact iff_of_false (by simp [asRecord]) (by rintro ⟨⟩)

/-- The bytes are the text of the JSON value. Where they are no text, what is no text in them stands
for an escape that names no character, which makes the string that it is in flawed. -/
inductive Spells : List UInt8 → Json → Prop
  | text {text : String} {j : Json} (isText : IsTextOf text.toList j) : Spells (toBytes text) j
  | stray {bytes : List UInt8} {j : Json} (no_text : ofBytes? bytes = none)
      (isText : IsTextOf (ofBytesAround strayBytes bytes).toList j) : Spells bytes j

lemma spells_iff {bytes : List UInt8} {j : Json} : Spells bytes j ↔
    Json.read? ((ofBytes? bytes).getD (ofBytesAround strayBytes bytes)) = some j := by
  rw [Json.read?_eq_some_iff]
  constructor
  · rintro (isText | ⟨hnone, isText⟩)
    · rwa [ofBytes?_toBytes]
    · rwa [hnone]
  · intro h
    cases hbytes : ofBytes? bytes with
    | none => exact .stray hbytes (by rwa [hbytes] at h)
    | some text =>
      rw [hbytes] at h
      obtain rfl := ofBytes?_eq_some_iff.1 hbytes
      exact .text h

lemma payload?_eq_some_iff {token : String} {j : Json} : payload? token = some j ↔
    ∃ bytes, (trim token).toList = Base64.encode bytes ∧ Spells bytes j := by
  simp only [payload?, Option.bind_eq_bind, Option.bind_eq_some_iff, Base64.decode_eq_some_iff,
    spells_iff]

lemma ofToken_eq_ok_iff {token : String} {k : PageKey} :
    ofToken token = .ok k ↔ ∃ j, payload? token = some j ∧ IsEnvelope k j := by
  simp only [← ofJson_eq_ok_iff, ofToken]
  cases payload? token with
  | none => simp
  | some j =>
    simp only [Option.map_some, Option.some.injEq, exists_eq_left']
    rcases hread : ofJson j with fault | ⟨v, key⟩
    · simp
    · by_cases hv : v = tokenVersion <;> simp [hv]

lemma ofToken_answers (token : String) :
    (∃ k, ofToken token = .ok k) ∨ ∃ e, ofToken token = .error e ∧ e.category = .badRequest := by
  rw [ofToken]
  split
  · split
    · exact .inl ⟨_, rfl⟩
    · exact .inr ⟨_, rfl, rfl⟩
  · exact .inr ⟨_, rfl, rfl⟩

lemma digit_plain (n : Fin 64) : (Base64.digit n).toNat < 0x80 ∧
    Base64.digit n ≠ '+' ∧ Base64.digit n ≠ '%' := by
  decide +revert

lemma digit_alphabet (n : Fin 64) :
    (Base64.digit n).isAlphanum ∨ Base64.digit n = '-' ∨ Base64.digit n = '_' := by
  decide +revert

/-- Every key has a token, of letters, digits, hyphens and underscores, which neither trimming nor
the decoding of a query changes and which gives the key back. A text gives a key just if, trimmed,
it is the base 64 of some bytes, in the one way to write these, and they spell an envelope of the
key; any other text is a bad request. -/
theorem tokens_exact :
    (∀ k : PageKey, (∀ c ∈ k.token.toList, c.isAlphanum ∨ c = '-' ∨ c = '_') ∧
      trim k.token = k.token ∧ Http.formText k.token.toList = k.token ∧
      ofToken k.token = .ok k) ∧
    ∀ token : String,
      (∀ k, ofToken token = .ok k ↔ ∃ bytes j, (trim token).toList = Base64.encode bytes ∧
        Spells bytes j ∧ IsEnvelope k j) ∧
      ((∃ k, ofToken token = .ok k) ∨
        ∃ e, ofToken token = .error e ∧ e.category = .badRequest) := by
  refine ⟨fun k => ⟨?_, trim_encode _, ?_, ofToken_token k⟩, fun token => ⟨fun k => ?_,
    ofToken_answers token⟩⟩
  · rw [token, String.toList_ofList]
    exact Base64.of_mem_encode digit_alphabet
  · rw [token, String.toList_ofList]
    exact Http.formText_of_plain (Base64.of_mem_encode fun n => (digit_plain n).1)
      (Base64.of_mem_encode fun n => (digit_plain n).2)
  · rw [ofToken_eq_ok_iff]
    constructor
    · rintro ⟨j, hj, henvelope⟩
      obtain ⟨bytes, hbytes, hspells⟩ := payload?_eq_some_iff.1 hj
      exact ⟨bytes, j, hbytes, hspells, henvelope⟩
    · rintro ⟨bytes, j, hbytes, hspells, henvelope⟩
      exact ⟨j, payload?_eq_some_iff.2 ⟨bytes, hbytes, hspells⟩, henvelope⟩

/-- The object with version 1, the name `n` and a field `z` that holds the byte `0xff`, which is no
text. -/
def strayToken : String := "eyJ2IjoxLCJuYW1lIjoibiIsInoiOiL_In0"

/-- A token is also accepted where its bytes are no text, in a field that it does not know. -/
theorem not_forall_token_text : ¬∀ (token : String) (k : PageKey), ofToken token = .ok k →
    ∃ text j, (trim token).toList = Base64.encode (toBytes text) ∧ IsTextOf text.toList j ∧
      IsEnvelope k j := by
  intro h
  obtain ⟨text, j, hbytes, -, -⟩ := h strayToken ⟨"n", none⟩ (by decide +kernel)
  have hno_text : ((Base64.decode (trim strayToken).toList).bind ofBytes?) = none := by
    decide +kernel
  rw [hbytes, Base64.decode_encode, Option.bind_some, ofBytes?_toBytes] at hno_text
  cases hno_text

end PageKey

end MissionCatalog
