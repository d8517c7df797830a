import Stackwright.Scalar.Kind

/-! # Binary floating-point formats

A float is kept as its **bits**. This module says what number the bits stand for (`decode`) and which
bits stand for a number (`encode`, rounding to the nearest representable one, a tie to the even
mantissa). Between the two a float is a `Binary`: not a number, an infinity, or a signed integer
scaled by a power of two, on which arithmetic is exact. -/

namespace Stackwright

/-- A float **read off its bits**: the finite ones as `± mantissa · 2 ^ exponent`. -/
inductive Binary
  | nan
  | infinite (negative : Bool)
  | finite (negative : Bool) (mantissa : Nat) (exponent : Int)
  deriving DecidableEq

namespace FloatKind

/-- The number of stored mantissa bits. -/
def fractionBits : FloatKind → Nat
  | .single => 23
  | .double => 52

/-- The number of exponent bits. -/
def exponentBits : FloatKind → Nat
  | .single => 8
  | .double => 11

/-- The exponent of the smallest positive float, which all subnormal floats are scaled by. -/
def minExponent : FloatKind → Int
  | .single => -149
  | .double => -1074

/-- The bits of positive infinity; everything below them, the sign apart, is finite. -/
def infinityBits (k : FloatKind) : Nat :=
  ((1 <<< k.exponentBits) - 1) <<< k.fractionBits

/-- The number that the bits stand for. -/
def decode (k : FloatKind) (v : BitVec k.bits) : Binary :=
  let fraction := v.toNat % (1 <<< k.fractionBits)
  let biased := (v.toNat >>> k.fractionBits) % (1 <<< k.exponentBits)
  let negative := v.msb
  if biased = (1 <<< k.exponentBits) - 1 then
    if fraction = 0 then .infinite negative else .nan
  else if biased = 0 then
    .finite negative fraction k.minExponent
  else
    .finite negative ((1 <<< k.fractionBits) + fraction) (k.minExponent + (biased - 1 : Nat))

end FloatKind

/-- The quotient of `m` by `2 ^ s`, rounded **to nearest**, a tie to the even neighbour. -/
def roundShift (m s : Nat) : Nat :=
  let quotient := m >>> s
  let twice := 2 * (m % (1 <<< s))
  if 1 <<< s < twice ∨ (twice = 1 <<< s ∧ quotient % 2 = 1) then quotient + 1 else quotient

@[simp] theorem roundShift_zero (m : Nat) : roundShift m 0 = m := by
  simp [roundShift, Nat.mod_one]

namespace FloatKind

/-- The bits of `mantissa · 2 ^ exponent` without its sign. The last place is the larger of the
format's smallest exponent and the one that leaves `fractionBits + 1` bits; a mantissa that rounds up
to one bit more carries into the exponent by itself. -/
def magnitudeBits (k : FloatKind) (mantissa : Nat) (exponent : Int) : Nat :=
  if mantissa = 0 then 0 else
  let lastPlace := max (exponent + mantissa.log2 - k.fractionBits) k.minExponent
  let scaled :=
    if exponent ≤ lastPlace then roundShift mantissa (lastPlace - exponent).toNat
    else mantissa <<< (exponent - lastPlace).toNat
  min (((lastPlace - k.minExponent).toNat <<< k.fractionBits) + scaled) k.infinityBits

/-- The bits of the nearest float. What is no number gets the quiet pattern. -/
def encode (k : FloatKind) : Binary → BitVec k.bits
  | .nan => BitVec.ofNat _ (k.infinityBits + (1 <<< (k.fractionBits - 1)))
  | .infinite negative => signed negative k.infinityBits
  | .finite negative mantissa exponent => signed negative (k.magnitudeBits mantissa exponent)
where
  /-- Puts the sign bit above a magnitude. -/
  signed (negative : Bool) (magnitude : Nat) : BitVec k.bits :=
    BitVec.ofNat _ (if negative then (1 <<< (k.bits - 1)) + magnitude else magnitude)

end FloatKind

namespace Binary

/-- The same float with the other sign. -/
def neg : Binary → Binary
  | .nan => .nan
  | .infinite negative => .infinite (!negative)
  | .finite negative mantissa exponent => .finite (!negative) mantissa exponent

/-- The signed mantissa of a finite float at a smaller exponent. -/
def scaledTo (negative : Bool) (mantissa : Nat) (exponent low : Int) : Int :=
  let magnitude : Nat := mantissa <<< (exponent - low).toNat
  if negative then -(magnitude : Int) else magnitude

/-- The **exact** sum. A sum of nothing is negative zero only when both operands are. -/
def add : Binary → Binary → Binary
  | .nan, _ | _, .nan => .nan
  | .infinite a, .infinite b => if a = b then .infinite a else .nan
  | .infinite a, .finite .. => .infinite a
  | .finite .., .infinite b => .infinite b
  | .finite a m e, .finite b n f =>
    let low := min e f
    let total := scaledTo a m e low + scaledTo b n f low
    if total = 0 then .finite (a && b) 0 low else .finite (total < 0) total.natAbs low

/-- The exact difference. -/
def sub (x y : Binary) : Binary := x.add y.neg

/-- The order of two floats, undefined when one is not a number; the two zeros are equal. -/
def compare? : Binary → Binary → Option Ordering
  | .nan, _ | _, .nan => none
  | .infinite a, .infinite b => some (if a = b then .eq else if a then .lt else .gt)
  | .infinite a, .finite .. => some (if a then .lt else .gt)
  | .finite .., .infinite b => some (if b then .gt else .lt)
  | .finite a m e, .finite b n f =>
    let low := min e f
    some (compare (scaledTo a m e low) (scaledTo b n f low))

/-- The integer part of a finite float, **toward zero**. -/
def truncate (negative : Bool) (mantissa : Nat) (exponent : Int) : Int :=
  let magnitude : Nat :=
    if 0 ≤ exponent then mantissa <<< exponent.toNat else mantissa >>> (-exponent).toNat
  if negative then -(magnitude : Int) else magnitude

/-- The float that an integer stands for, exactly. -/
def ofInt (n : Int) : Binary := .finite (n < 0) n.natAbs 0

end Binary

end Stackwright
