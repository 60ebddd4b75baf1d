import Mathlib
import MissionCatalog.Text.Characters
import MissionCatalog.Text.Digits

/-!
# Texts and bytes

There is one text in base 64 for a list of bytes, so that only this text is read as the bytes. The
bytes of an ASCII text are its characters' codes, and these are read back as they are.
-/
namespace MissionCatalog

namespace Text

namespace Base64

lemma digit_of_value? {c : Char} {n : ℕ} (h : value? c = some n) : n < 64 ∧ digit n = c := by
  have hchar : ∀ {m : ℕ}, m = c.toNat → Char.ofNat m = c := fun hm => by
    rw [hm, Char.ofNat_toNat]
  simp only [value?] at h
  split at h
  · next hc =>
    obtain rfl := Option.some.inj h
    exact ⟨by omega, by rw [digit, if_pos (by omega), hchar (by omega)]⟩
  split at h
  · next hc =>
    obtain rfl := Option.some.inj h
    exact ⟨by omega, by rw [digit, if_neg (by omega), if_pos (by omega), hchar (by omega)]⟩
  split at h
  · next hc =>
    obtain rfl := Option.some.inj h
    refine ⟨by omega, ?_⟩
    rw [digit, if_neg (by omega), if_neg (by omega), if_pos (by omega), hchar (by omega)]
  split at h
  · next hc =>
    obtain rfl := Option.some.inj h
    exact ⟨by decide, hc.symm⟩
  split at h
  · next hc =>
    obtain rfl := Option.some.inj h
    exact ⟨by decide, hc.symm⟩
  · simp at h

lemma digits_of_mapM_value? {s : List Char} {ns : List ℕ} (h : s.mapM value? = some ns) :
    (∀ n ∈ ns, n < 64) ∧ ns.map digit = s := by
  induction s generalizing ns with
  | nil =>
    obtain rfl : [] = ns := by simpa using h
    simp
  | cons c s ih =>
    rw [List.mapM_cons] at h
    obtain ⟨n, hn, h⟩ := Option.bind_eq_some_iff.1 h
    obtain ⟨ms, hms, h⟩ := Option.bind_eq_some_iff.1 h
    obtain rfl : n :: ms = ns := by simpa using h
    obtain ⟨hlt, hdigit⟩ := digit_of_value? hn
    obtain ⟨hlts, hdigits⟩ := ih hms
    exact ⟨by simpa [hlt] using hlts, by rw [List.map_cons, hdigit, hdigits]⟩

lemma toNat_ofNat_of_lt {n : ℕ} (h : n < 256) : (UInt8.ofNat n).toNat = n := by
  simp [Nat.mod_eq_of_lt h]

lemma toDigits_of_ofDigits {ns : List ℕ} {bytes : List UInt8} (hn : ∀ n ∈ ns, n < 64)
    (h : ofDigits ns = some bytes) : toDigits bytes = ns := by
  fun_induction ofDigits ns generalizing bytes with
  | case1 =>
    obtain rfl := Option.some.inj h
    rfl
  | case2 w => simp at h
  | case3 w x hx =>
    obtain rfl := Option.some.inj h
    obtain ⟨hw, hx64⟩ : w < 64 ∧ x < 64 := by simpa using hn
    simp only [toDigits, toNat_ofNat_of_lt (show w * 4 + x / 16 < 256 by omega),
      List.cons.injEq, and_true]
    omega
  | case4 w x hx => simp at h
  | case5 w x y hy =>
    obtain rfl := Option.some.inj h
    obtain ⟨hw, hx, hy64⟩ : w < 64 ∧ x < 64 ∧ y < 64 := by simpa using hn
    simp only [toDigits, toNat_ofNat_of_lt (show w * 4 + x / 16 < 256 by omega),
      toNat_ofNat_of_lt (show x % 16 * 16 + y / 4 < 256 by omega), List.cons.injEq, and_true]
    omega
  | case6 w x y hy => simp at h
  | case7 w x y z rest ih =>
    obtain ⟨tail, htail, rfl⟩ := Option.map_eq_some_iff.1 h
    simp only [List.forall_mem_cons] at hn
    obtain ⟨hw, hx, hy, hz, hrest⟩ := hn
    simp only [toDigits, toNat_ofNat_of_lt (show w * 4 + x / 16 < 256 by omega),
      toNat_ofNat_of_lt (show x % 16 * 16 + y / 4 < 256 by omega),
      toNat_ofNat_of_lt (show y % 4 * 64 + z < 256 by omega), ih hrest htail, List.cons.injEq,
      and_true]
    omega

/-- Only the text that a list of bytes is written as is read as these bytes. -/
theorem decode_eq_some_iff {s : List Char} {bytes : List UInt8} :
    decode s = some bytes ↔ s = encode bytes := by
  constructor
  · intro h
    obtain ⟨ns, hns, hof⟩ := Option.bind_eq_some_iff.1 h
    obtain ⟨hlt, hdigits⟩ := digits_of_mapM_value? hns
    rw [encode, toDigits_of_ofDigits hlt hof, hdigits]
  · rintro rfl
    exact decode_encode bytes

/-- What holds of all 64 digits holds of every character that bytes are written with. -/
lemma of_mem_encode {P : Char → Prop} (h : ∀ n : Fin 64, P (digit n)) {bytes : List UInt8} :
    ∀ c ∈ encode bytes, P c := by
  intro c hc
  obtain ⟨n, hn, rfl⟩ := List.mem_map.1 hc
  exact h ⟨n, lt_of_mem_toDigits hn⟩

end Base64

lemma toBytes_ofList_of_ascii {s : List Char} (h : ∀ c ∈ s, c.toNat < 0x80) :
    toBytes (String.ofList s) = s.map Char.toUInt8 := by
  rw [toBytes, String.toByteArray_ofList, List.utf8Encode, List.toList_data_toByteArray]
  induction s with
  | nil => rfl
  | cons c s ih =>
    obtain ⟨hc, hs⟩ := List.forall_mem_cons.1 h
    have hsize : c.utf8Size = 1 := by
      rw [Char.utf8Size]
      exact if_pos (by rw [UInt32.le_iff_toNat_le]; exact Nat.le_of_lt_succ hc)
    rw [List.flatMap_cons, String.utf8EncodeChar_eq_singleton hsize, ih hs]
    rfl

lemma ofBytes?_eq_some_iff {bytes : List UInt8} {text : String} :
    ofBytes? bytes = some text ↔ bytes = toBytes text := by
  constructor
  · intro h
    simp only [ofBytes?, String.fromUTF8?] at h
    split at h
    · obtain rfl := Option.some.inj h
      simp [toBytes, String.fromUTF8]
    · simp at h
  · rintro rfl
    exact ofBytes?_toBytes text

lemma toNat_toUInt8_of_ascii {c : Char} (h : c.toNat < 0x80) : c.toUInt8.toNat = c.toNat := by
  rw [Char.toUInt8, UInt32.toNat_toUInt8]
  exact Nat.mod_eq_of_lt (show c.toNat < 256 by omega)

lemma readAround_of_ascii {stray s : List Char} (h : ∀ c ∈ s, c.toNat < 0x80) :
    readAround stray 0 0 0 0 (s.map Char.toUInt8) = s := by
  induction s with
  | nil => simp [readAround]
  | cons c s ih =>
    obtain ⟨hc, hs⟩ := List.forall_mem_cons.1 h
    have hlt : c.toUInt8 < 0x80 := by
      rw [UInt8.lt_iff_toNat_lt, toNat_toUInt8_of_ascii hc]
      exact hc
    simp [readAround, hlt, toNat_toUInt8_of_ascii hc, ih hs]

end Text

end MissionCatalog
