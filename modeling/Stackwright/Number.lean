import Stackwright.Binary.Format

/-! # Numbers

A **number** is what a scalar means in arithmetic: an exact integer, or a double. Integers
stay exact until they meet a double; a double becomes an integer by truncation, clamped to 128 bits. -/

namespace Stackwright

/-- The numeric meaning of a scalar. -/
inductive Number
  /-- An exact integer. -/
  | int (value : Int)
  /-- A double, by its bits. -/
  | float (bits : BitVec 64)
  deriving DecidableEq

namespace Number

/-- The least integer a double is truncated to. -/
def minInteger : Int := (BitVec.intMin 128).toInt

/-- The greatest integer a double is truncated to. -/
def maxInteger : Int := (BitVec.intMax 128).toInt

/-- The double nearest to the number. -/
def toDouble : Number → BitVec 64
  | .int n => FloatKind.double.encode (.ofInt n)
  | .float bits => bits

/-- The number as a float read off its bits. -/
def toBinary (n : Number) : Binary := FloatKind.double.decode n.toDouble

/-- The integer part of a float, **clamped** to 128 bits; what is no number counts as zero. -/
def clamp : Binary → Int
  | .nan => 0
  | .infinite negative => if negative then minInteger else maxInteger
  | .finite negative mantissa exponent =>
    max minInteger (min maxInteger (Binary.truncate negative mantissa exponent))

/-- The integer a number stands for. -/
def toInteger : Number → Int
  | .int n => n
  | .float bits => clamp (FloatKind.double.decode bits)

@[simp] theorem toInteger_int (n : Int) : (Number.int n).toInteger = n := rfl

/-- The order of two numbers: exact between integers, else as doubles. It is undefined when one of
them is not a number. -/
def compare? : Number → Number → Option Ordering
  | .int a, .int b => some (compare a b)
  | a, b => a.toBinary.compare? b.toBinary

/-- The sum of two numbers as doubles. -/
def addDouble (a b : Number) : Number :=
  .float (FloatKind.double.encode (a.toBinary.add b.toBinary))

/-- The difference of two numbers as doubles. -/
def subDouble (a b : Number) : Number :=
  .float (FloatKind.double.encode (a.toBinary.sub b.toBinary))

end Number

end Stackwright
