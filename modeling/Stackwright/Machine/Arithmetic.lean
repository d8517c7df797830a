import Stackwright.Comparison
import Stackwright.Value.Equality
import Stackwright.World

/-! # Arithmetic on values

Sums, differences, bitwise operations and comparisons of values on the evaluation stack. Operands are
widened first, and the wider kind of the two decides the **kind of the result**; an integer result wraps
to it. -/

namespace Stackwright

/-- The **kind of the result** of an operation on two kinds. -/
def ScalarKind.join (a b : ScalarKind) : ScalarKind :=
  match a.widened, b.widened with
  | .f64, _ | _, .f64 => .f64
  | .f32, _ | _, .f32 => .f32
  | .u64, .u64 => .u64
  | .i64, _ | _, .i64 | .u64, _ | _, .u64 => .i64
  | .u32, .u32 => .u32
  | _, _ => .i32

theorem ScalarKind.join_comm (a b : ScalarKind) : a.join b = b.join a := by
  unfold ScalarKind.join
  generalize a.widened = a
  generalize b.widened = b
  rcases a with _ | ⟨⟨⟩⟩ | ⟨⟨⟩⟩ <;> rcases b with _ | ⟨⟨⟩⟩ | ⟨⟨⟩⟩ <;> rfl

namespace Scalar

/-- An operation on two scalars, exact on integers and rounded on floats. -/
def combine (onInts : Int → Int → Int) (onFloats : Number → Number → Number) (a b : Scalar) :
    Scalar :=
  let kind := a.kind.join b.kind
  if kind.isFloat then ofNumber kind (onFloats a.toNumber b.toNumber)
  else ofNumber kind (.int (onInts a.toNumber.toInteger b.toNumber.toInteger))

/-- The sum. -/
def add : Scalar → Scalar → Scalar := combine (· + ·) Number.addDouble

/-- The difference. -/
def sub : Scalar → Scalar → Scalar := combine (· - ·) Number.subDouble

/-- A bitwise operation on 128-bit two's complement. -/
def onBits (op : BitVec 128 → BitVec 128 → BitVec 128) (a b : Int) : Int :=
  (op (BitVec.ofInt 128 a) (BitVec.ofInt 128 b)).toInt

/-- A bitwise operation on two scalars: of two truth values a truth value, of integers an integer, of
floats nothing. -/
def bitwise? (op : BitVec 128 → BitVec 128 → BitVec 128) (a b : Scalar) : Option Scalar :=
  match a, b, a.toNumber, b.toNumber with
  | .bool _, .bool _, .int x, .int y => some (.bool (onBits op x y != 0))
  | _, _, .int x, .int y => some (ofNumber (a.kind.join b.kind) (.int (onBits op x y)))
  | _, _, _, _ => none

/-- The bitwise negation, of a truth value the logical one; of floats nothing. -/
def complement? (a : Scalar) : Option Scalar :=
  match a, a.toNumber with
  | .bool b, _ => some (.bool (!b))
  | _, .int x => some (ofNumber a.kind.widened (.int (-x - 1)))
  | _, .float _ => none

end Scalar

namespace Value

/-- The scalar a value is. -/
def scalar? : Value → Option Scalar
  | .scalar s => some s
  | _ => none

end Value

namespace Host

/-- The scalar an operand is. -/
def scalarOf (v : Value) : Host Scalar := expect "numeric value" v v.scalar?

/-- An operation on two numeric operands. -/
def arithmetic (op : Scalar → Scalar → Scalar) (a b : Value) : Host Value := do
  let x ← scalarOf a
  let y ← scalarOf b
  pure (.scalar (op x y))

/-- A bitwise operation on two operands; a float is the one that is out of place. -/
def bitwise (op : BitVec 128 → BitVec 128 → BitVec 128) (a b : Value) : Host Value := do
  let x ← scalarOf a
  let y ← scalarOf b
  match x.bitwise? op y with
  | some s => pure (.scalar s)
  | none => unexpected "integer" (if x.kind.isFloat then a else b)

/-- The negation of an operand. -/
def complement (a : Value) : Host Value := do
  let x ← scalarOf a
  match x.complement? with
  | some s => pure (.scalar s)
  | none => unexpected "integer" a

/-- Whether a **comparison** of two operands holds. Equality is identity; the order of numbers decides
the rest, and where there is none nothing holds. -/
def holds (c : Comparison) (a b : Value) : Host Bool := do
  match c with
  | .equalTo => return (← heap).identical a b
  | .notEqualTo => return !(← heap).identical a b
  | c =>
    let x ← scalarOf a
    let y ← scalarOf b
    match x.toNumber.compare? y.toNumber with
    | some o => pure (c.accepts o)
    | none => pure false

end Host

end Stackwright
