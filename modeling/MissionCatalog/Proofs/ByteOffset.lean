import MissionCatalog.Proofs.Except
import MissionCatalog.Text.Split

/-!
# Byte offsets in texts

An offset counts bytes of UTF-8, so that not every number up to the size of a text is a place where it
can be cut: `cutAt` fails inside a character and behind the end. A sum of offsets needs no check of its
own, since a text that is cut there is at least as long; a difference does.
-/
namespace MissionCatalog.Text

/-- Why an offset is of no use. -/
inductive OffsetFault where
  | belowZero
  /-- No character begins at the offset, and the text does not end there. -/
  | noBoundary (offset : ℕ)
deriving DecidableEq, Repr

/-- The parts of a text before and behind an offset. -/
def cutAt (s : String) (offset : ℕ) : Except OffsetFault (String × String) :=
  if h : String.Pos.Raw.IsValid s ⟨offset⟩ then
    let place := s.pos ⟨offset⟩ h
    .ok ((s.sliceTo place).copy, (s.sliceFrom place).copy)
  else .error (.noBoundary offset)

def oneBelow : ℕ → Except OffsetFault ℕ
  | 0 => .error .belowZero
  | offset + 1 => .ok offset

def firstOffset? (p : Char → Bool) : List Char → Option ℕ
  | [] => none
  | c :: s => if p c then some 0 else (firstOffset? p s).map (· + c.utf8Size)

def lastOffset? (c : Char) : List Char → Option ℕ
  | [] => none
  | x :: s =>
    match lastOffset? c s with
    | some offset => some (offset + x.utf8Size)
    | none => if x = c then some 0 else none

def byteSize (s : List Char) : ℕ := (String.ofList s).utf8ByteSize

@[simp] lemma byteSize_nil : byteSize [] = 0 := rfl

@[simp] lemma byteSize_append (s t : List Char) : byteSize (s ++ t) = byteSize s + byteSize t := by
  simp [byteSize]

@[simp] lemma byteSize_cons (c : Char) (s : List Char) :
    byteSize (c :: s) = c.utf8Size + byteSize s := by
  simp [byteSize, String.ofList_cons]

lemma byteSize_toList (s : String) : byteSize s.toList = s.utf8ByteSize := by simp [byteSize]

lemma byteSize_eq_zero_iff {s : List Char} : byteSize s = 0 ↔ s = [] := by simp [byteSize]

/-- A text is cut in two just behind the bytes of the first part. -/
lemma cutAt_eq_ok_iff {s before behind : String} {offset : ℕ} :
    cutAt s offset = .ok (before, behind) ↔
      s = before ++ behind ∧ offset = before.utf8ByteSize := by
  constructor
  · intro h
    rw [cutAt] at h
    split at h
    · next hvalid =>
      obtain ⟨rfl, rfl⟩ := Prod.mk.inj (Except.ok.inj h)
      have hsplits := (s.pos ⟨offset⟩ hvalid).splits
      exact ⟨hsplits.eq_append, congrArg String.Pos.Raw.byteIdx hsplits.offset_eq_rawEndPos⟩
    · simp at h
  · rintro ⟨rfl, rfl⟩
    have hvalid : String.Pos.Raw.IsValid (before ++ behind) ⟨before.utf8ByteSize⟩ :=
      String.Pos.Raw.isValid_rawEndPos.append_right behind
    have hsplits : ((before ++ behind).pos _ hvalid).Splits before behind := ⟨rfl, rfl⟩
    rw [cutAt, dif_pos hvalid]
    simp only [hsplits.copy_sliceTo_eq, hsplits.copy_sliceFrom_eq]

/-- The offset lies inside the `ö`. -/
example : cutAt "größe" 3 = .error (.noBoundary 3) := by decide +kernel

lemma cutAt_append (before behind : List Char) :
    cutAt (String.ofList (before ++ behind)) (byteSize before) =
      .ok (String.ofList before, String.ofList behind) :=
  cutAt_eq_ok_iff.2 ⟨String.ofList_append, rfl⟩

lemma firstOffset?_eq (p : Char → Bool) (s : List Char) :
    firstOffset? p s =
      if s.dropWhile (!p ·) = [] then none else some (byteSize (s.takeWhile (!p ·))) := by
  induction s with
  | nil => rfl
  | cons c s ih =>
    rw [firstOffset?]
    cases hc : p c with
    | true => simp [hc]
    | false =>
      rw [List.dropWhile_cons_of_pos (by simp [hc]), List.takeWhile_cons_of_pos (by simp [hc]), ih,
        byteSize_cons, if_neg Bool.false_ne_true, apply_ite (Option.map _), Option.map_none,
        Option.map_some, Nat.add_comm]

lemma lastOffset?_eq (c : Char) (s : List Char) :
    lastOffset? c s = (splitLast c s).map fun cut => byteSize cut.1 := by
  induction s with
  | nil => rfl
  | cons x s ih =>
    rw [lastOffset?, splitLast, ih]
    cases splitLast c s with
    | none =>
      by_cases hx : x = c <;> simp [hx]
    | some cut => simp [add_comm]

end MissionCatalog.Text
