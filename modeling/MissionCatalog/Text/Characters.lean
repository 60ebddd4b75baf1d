/-!
Characters: sets of them, white space, and the bytes that they are written in. Reading bytes as UTF-8
comes in two forms: `ofBytes?` refuses what is not UTF-8, `ofBytesAround` puts a given text for every
longest stretch that begins a character and does not end it, and `ofBytesLossy` the replacement
character.
-/
namespace MissionCatalog.Text

/-- A set of characters as the code points where membership changes: it is off before the first bound
and changes at every bound. -/
structure CharSet where
  bounds : List Nat

def CharSet.contains (s : CharSet) (c : Char) : Bool :=
  s.bounds.countP (· ≤ c.toNat) % 2 == 1

/-- White space as Unicode's property `White_Space` has it. -/
def isBlank (c : Char) : Bool :=
  let n := c.toNat
  (0x09 ≤ n && n ≤ 0x0d) || n == 0x20 || n == 0x85 || n == 0xa0 || n == 0x1680 ||
    (0x2000 ≤ n && n ≤ 0x200a) || n == 0x2028 || n == 0x2029 || n == 0x202f || n == 0x205f ||
    n == 0x3000

def toBytes (s : String) : List UInt8 := s.toByteArray.data.toList

def ofBytes? (bytes : List UInt8) : Option String := String.fromUTF8? ⟨bytes.toArray⟩

theorem ofBytes?_toBytes (s : String) : ofBytes? (toBytes s) = some s := by
  have h : (⟨(toBytes s).toArray⟩ : ByteArray) = s.toByteArray := by simp [toBytes]
  rw [ofBytes?, h, String.fromUTF8?, dif_pos s.isValidUTF8]
  rfl

/-- The continuation bytes that a lead byte asks for, the range of the first of them, and its bits. -/
def lead? (b : UInt8) : Option (Nat × UInt8 × UInt8 × Nat) :=
  if 0xc2 ≤ b ∧ b ≤ 0xdf then some (1, 0x80, 0xbf, b.toNat - 0xc0)
  else if b = 0xe0 then some (2, 0xa0, 0xbf, 0)
  else if b = 0xed then some (2, 0x80, 0x9f, 0xd)
  else if 0xe1 ≤ b ∧ b ≤ 0xef then some (2, 0x80, 0xbf, b.toNat - 0xe0)
  else if b = 0xf0 then some (3, 0x90, 0xbf, 0)
  else if 0xf1 ≤ b ∧ b ≤ 0xf3 then some (3, 0x80, 0xbf, b.toNat - 0xf0)
  else if b = 0xf4 then some (3, 0x80, 0x8f, 4)
  else none

/-- Reads `need` more bytes of a character of which `bits` are known; the next byte must lie between
`low` and `high`. With `need = 0` it reads on from the start of a character. -/
def readAround (stray : List Char) (need : Nat) (low high : UInt8) (bits : Nat) :
    List UInt8 → List Char
  | [] => if need = 0 then [] else stray
  | b :: rest =>
    if need ≠ 0 ∧ low ≤ b ∧ b ≤ high then
      let bits := bits * 64 + b.toNat % 64
      if need = 1 then Char.ofNat bits :: readAround stray 0 0 0 0 rest
      else readAround stray (need - 1) 0x80 0xbf bits rest
    else
      (if need = 0 then [] else stray) ++
        if b < 0x80 then Char.ofNat b.toNat :: readAround stray 0 0 0 0 rest
        else
          match lead? b with
          | some (n, lo, hi, start) => readAround stray n lo hi start rest
          | none => stray ++ readAround stray 0 0 0 0 rest

/-- The text of the bytes, with `stray` where they are no text. -/
def ofBytesAround (stray : List Char) (bytes : List UInt8) : String :=
  String.ofList (readAround stray 0 0 0 0 bytes)

def ofBytesLossy (bytes : List UInt8) : String := ofBytesAround ['\ufffd'] bytes

end MissionCatalog.Text
