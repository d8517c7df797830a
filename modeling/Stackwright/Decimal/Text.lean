import Stackwright.Decimal.Shortest

/-! # Decimal text of floats

How a float is written. Both styles use the shortest decimal that reads back; they differ in when an
exponent is used, in whether a whole number keeps a point, and in the name of infinity. -/

namespace Stackwright

/-- The decisions of one way to **write a float**. -/
structure FloatStyle where
  /-- Write `2.0` for a whole number. -/
  pointZero : Bool
  /-- The exponents of the leading digit that are written positionally; every one when absent. -/
  positional : Option (Int × Int)
  /-- The name of infinity. -/
  infinity : String

namespace FloatStyle

/-- The plain style never uses an exponent and drops a zero fraction. -/
def plain : FloatStyle := ⟨false, none, "inf"⟩

/-- The style of values shown to a user: plain, with infinity spelled out. -/
def display : FloatStyle := ⟨false, none, "Infinity"⟩

/-- The style of diagnostics: always a point, or an exponent below `1e-4` and from `1e16` on. -/
def debug : FloatStyle := ⟨true, some (-4, 15), "inf"⟩

/-- A run of zeros. -/
def zeros (n : Nat) : List Char := List.replicate n '0'

/-- Digits without the zeros they end in. -/
def trimZeros (digits : List Char) : List Char :=
  (digits.reverse.dropWhile (· == '0')).reverse

/-- Digits with a decimal point after the digit of exponent zero, where `lead` is the exponent of the
first digit. -/
def positionalText (s : FloatStyle) (digits : List Char) (lead : Int) : List Char :=
  if lead < 0 then
    ['0', '.'] ++ zeros (-lead - 1).toNat ++ digits
  else
    let whole := lead.toNat + 1
    let missing := whole - digits.length
    let fraction := digits.drop whole
    digits.take whole ++ zeros missing ++
      (if fraction.isEmpty then (if s.pointZero then ['.', '0'] else []) else '.' :: fraction)

/-- Digits with a point after the first and an exponent. -/
def exponentText (digits : List Char) (lead : Int) : List Char :=
  let fraction := digits.drop 1
  digits.take 1 ++ (if fraction.isEmpty then [] else '.' :: fraction) ++
    'e' :: (toString lead).toList

/-- The text of a positive decimal. -/
def decimalText (s : FloatStyle) (d : Decimal) : List Char :=
  let digits := Decimal.digitsOf d.coefficient
  let lead := d.exponent + digits.length - 1
  let shown := trimZeros digits
  match s.positional with
  | some (low, high) =>
    if low ≤ lead ∧ lead ≤ high then s.positionalText shown lead else exponentText shown lead
  | none => s.positionalText shown lead

/-- The text of a float read off its bits. -/
def write (s : FloatStyle) (k : FloatKind) : Binary → String
  | .nan => "NaN"
  | .infinite negative => sign negative ++ s.infinity
  | .finite negative 0 _ => sign negative ++ (if s.pointZero then "0.0" else "0")
  | .finite negative mantissa exponent =>
    sign negative ++ String.ofList (s.decimalText (Decimal.shortest k mantissa exponent))
where
  /-- The sign is written for negative floats only, negative zero included. -/
  sign (negative : Bool) : String := if negative then "-" else ""

end FloatStyle

end Stackwright
