import Stackwright.Binary.Format

/-! # Shortest decimals

The decimal with the **fewest digits** that still reads back as a given positive float. A decimal
reads back when it lies in the interval of reals that round to the float; the ends of the interval
count exactly when the mantissa is even. For one digit, two digits, and so on, the value's two
neighbours on that decimal grid are tested in exact arithmetic; the first grid with a hit wins, of two
hits the nearer, and a tie goes up. -/

namespace Stackwright

/-- A positive decimal `coefficient · 10 ^ exponent`. -/
structure Decimal where
  /-- The digits, read as one number. -/
  coefficient : Nat
  /-- The power of ten they are scaled by. -/
  exponent : Int
  deriving DecidableEq

namespace Decimal

/-- The digits of a natural number, most significant first. -/
def digitsOf (n : Nat) : List Char := Nat.toDigits 10 n

/-- The exponent of the leading digit of the positive quotient `num / den`. -/
def leadingExponent (num den : Nat) : Int :=
  if den ≤ num then
    ((digitsOf (num / den)).length : Int) - 1
  else
    let places := (digitsOf (den / num)).length - 1
    if den ≤ num * Nat.pow 10 places then -(places : Int) else -(places + 1 : Nat)

/-- The reals that read back as one float, over a common denominator. -/
structure Rounding where
  /-- The least of them. -/
  low : Nat
  /-- The float itself. -/
  mid : Nat
  /-- The greatest of them. -/
  high : Nat
  /-- What the three are divided by. -/
  den : Nat
  /-- Whether the two ends read back as well. -/
  closed : Bool

namespace Rounding

/-- The interval of a positive float. Below a power of two the neighbour is half as far. -/
def ofBinary (k : FloatKind) (mantissa : Nat) (exponent : Int) : Rounding :=
  let below := if mantissa = 1 <<< k.fractionBits then 1 else 2
  let scale := (exponent - 2).toNat
  { low := (4 * mantissa - below) <<< scale
    mid := (4 * mantissa) <<< scale
    high := (4 * mantissa + 2) <<< scale
    den := 1 <<< (2 - exponent).toNat
    closed := mantissa % 2 = 0 }

/-- A grid of decimals: the multiples of `num / den`. -/
def grid (place : Int) : Nat × Nat := (Nat.pow 10 place.toNat, Nat.pow 10 (-place).toNat)

/-- Whether `c` steps of a grid read back as the float. -/
def accepts (r : Rounding) (place : Int) (c : Nat) : Bool :=
  let (num, den) := grid place
  let point := c * num * r.den
  if r.closed then r.low * den ≤ point ∧ point ≤ r.high * den
  else r.low * den < point ∧ point < r.high * den

/-- The grid point that reads back as the float, if one of its two neighbours does. -/
def onGrid? (r : Rounding) (place : Int) : Option Decimal :=
  let (num, den) := grid place
  let step := num * r.den
  let floor := r.mid * den / step
  let rest := r.mid * den % step
  match r.accepts place floor, r.accepts place (floor + 1) with
  | true, true => some ⟨if step ≤ 2 * rest then floor + 1 else floor, place⟩
  | true, false => some ⟨floor, place⟩
  | false, true => some ⟨floor + 1, place⟩
  | false, false => none

end Rounding

/-- The shortest decimal of a positive float. Seventeen digits always tell two floats apart. -/
def shortest (k : FloatKind) (mantissa : Nat) (exponent : Int) : Decimal :=
  let r := Rounding.ofBinary k mantissa exponent
  let lead := leadingExponent r.mid r.den
  let grids : List Int := (List.range 17).map fun (n : Nat) => lead - n
  (grids.findSome? r.onGrid?).getD ⟨r.mid * Nat.pow 10 17 / r.den, -17⟩

end Decimal

end Stackwright
