/-!
Numbers in double precision, exactly: a mantissa of 53 bits and a power of two. A product or a quotient
is the double nearest to the exact one, a tie going to the even mantissa. A double is written with the
fewest digits of which it is the nearest double, a tie going to the greater digit.
-/
namespace MissionCatalog

/-- The number `± digits · 10 ^ exponent`. -/
structure Decimal where
  negative : Bool
  digits : Nat
  exponent : Int
deriving DecidableEq, Repr

/-- The number `± mantissa · 2 ^ exponent`. -/
structure Double where
  negative : Bool
  mantissa : Nat
  exponent : Int
deriving DecidableEq, Repr

namespace Double

def minExponent : Int := -1074

/-- The quotient rounded to the nearest number, a tie to the even one. -/
def divideToEven (num den : Nat) : Nat :=
  let q := num / den
  let twice := 2 * (num % den)
  if den < twice ∨ (twice = den ∧ q % 2 = 1) then q + 1 else q

/-- The fraction `num / den · 2 ^ -e` with natural numbers only. -/
def shifted (num den : Nat) (e : Int) : Nat × Nat :=
  (num * Nat.pow 2 (-e).toNat, den * Nat.pow 2 e.toNat)

def exponentOf (num den : Nat) : Int :=
  let e : Int := (num.log2 : Int) - den.log2 - 53
  let (n, d) := shifted num den e
  max minExponent (if Nat.pow 2 53 ≤ n / d then e + 1 else e)

def ofFraction (negative : Bool) (num den : Nat) : Double :=
  if num = 0 then ⟨negative, 0, minExponent⟩
  else
    let e := exponentOf num den
    let (n, d) := shifted num den e
    let m := divideToEven n d
    if m = Nat.pow 2 53 then ⟨negative, Nat.pow 2 52, e + 1⟩ else ⟨negative, m, e⟩

def fractionOf (d : Decimal) : Nat × Nat :=
  if (Nat.toDigits 10 d.digits).length + d.exponent < -400 then (0, 1)
  else (d.digits * Nat.pow 10 d.exponent.toNat, Nat.pow 10 (-d.exponent).toNat)

def ofDecimal (d : Decimal) : Double :=
  let (num, den) := fractionOf d
  ofFraction d.negative num den

def ofInt (n : Int) : Double := ofFraction (n < 0) n.natAbs 1

def fraction (x : Double) : Nat × Nat := shifted x.mantissa 1 (-x.exponent)

def isZero (x : Double) : Bool := x.mantissa = 0

def maxExponent : Int := 971

def isFinite (x : Double) : Bool := x.isZero || x.exponent ≤ maxExponent

/-- The size of the number rounded to a whole one, a half going up. -/
def roundedSize (x : Double) : Nat :=
  let (num, den) := x.fraction
  (2 * num + den) / (2 * den)

def mul (x y : Double) : Double :=
  let (num, den) := shifted (x.mantissa * y.mantissa) 1 (-(x.exponent + y.exponent))
  ofFraction (x.negative != y.negative) num den

def div (x y : Double) : Double :=
  let (num, den) := shifted x.mantissa y.mantissa (y.exponent - x.exponent)
  ofFraction (x.negative != y.negative) num den

def maxTenPower : Nat := 308

def powerOfTen (n : Nat) : Double := ofFraction false (Nat.pow 10 n) 1

/-- Divides by the greatest power of ten a number of times, or until nothing is left. -/
def divideTimes (x : Double) : Nat → Double
  | 0 => x
  | n + 1 => if x.isZero then x else divideTimes (x.div (powerOfTen maxTenPower)) n

/-- Divides by `10 ^ n`, in several steps where `10 ^ n` is no double. -/
def divideByTenPower (x : Double) (n : Nat) : Double :=
  let times := (n - 1) / maxTenPower
  (x.divideTimes times).div (powerOfTen (n - times * maxTenPower))

/-- The number that `± significand · 10 ^ exponent` is computed as: the significand and the power of
ten are made doubles before they are multiplied or divided, so that the result can be a neighbour of
the nearest double. There is none beyond the largest double. -/
def ofScaled? (negative : Bool) (significand : Nat) (exponent : Int) : Option Double :=
  let x := ofFraction negative significand 1
  if exponent < 0 then some (x.divideByTenPower (-exponent).toNat)
  else if x.isZero then some x
  else if maxTenPower < exponent then none
  else
    let y := x.mul (powerOfTen exponent.toNat)
    if y.isFinite then some y else none

/-- How many digits stand before the point of `num / den`; below one tenth the zeros behind the point
count negatively. -/
def placesBefore (num den : Nat) : Int :=
  let d : Int := ((Nat.toDigits 10 num).length : Int) - (Nat.toDigits 10 den).length
  if den * Nat.pow 10 d.toNat ≤ num * Nat.pow 10 (-d).toNat then d + 1 else d

/-- The two numbers of `count` digits on either side of the size, the nearer one first; of two equally
near ones the greater. -/
def neighbours (x : Double) (count : Nat) : List Decimal :=
  let (num, den) := x.fraction
  let scale : Int := count - placesBefore num den
  let n := num * Nat.pow 10 scale.toNat
  let d := den * Nat.pow 10 (-scale).toNat
  let below : Decimal := ⟨x.negative, n / d, -scale⟩
  let above : Decimal := ⟨x.negative, n / d + 1, -scale⟩
  if 2 * (n % d) < d then [below, above] else [above, below]

/-- The decimal number with the fewest digits to which this is the nearest double; 17 always
suffice. -/
def shortest (x : Double) : Decimal :=
  let tried := (List.range 17).flatMap fun n => x.neighbours (n + 1)
  (tried.find? fun d => !x.isZero && ofDecimal d = x).getD ⟨x.negative, 0, 0⟩

/-- The number without an exponent, and without a point if it is whole. -/
def text (x : Double) : String :=
  let d := x.shortest
  let digits := Nat.toDigits 10 d.digits
  let places := (-d.exponent).toNat
  let padded := List.replicate (places + 1 - digits.length) '0' ++ digits ++
    List.replicate d.exponent.toNat '0'
  let whole := padded.take (padded.length - places)
  let fraction := ((padded.drop (padded.length - places)).reverse.dropWhile (· == '0')).reverse
  String.ofList <| (if d.negative then ['-'] else []) ++ whole ++
    if fraction.isEmpty then [] else '.' :: fraction

end Double

end MissionCatalog
