import Stackwright.Scalar.Basic
import Stackwright.Ty.Basic

/-! # Constants

The **constants** that emission calls can be given. Every constant has a type, and a member of an
enumeration is a constant of the kind that the enumeration is stored as. -/

namespace Stackwright

/-- A **constant**. -/
inductive Constant
  /-- The null reference. -/
  | null
  /-- A scalar. -/
  | scalar (value : Scalar)
  /-- A character, which may lie outside the 16-bit units. -/
  | char (value : Char)
  /-- A string. -/
  | text (value : String)
  /-- A member of an enumeration, by its raw value. -/
  | enumeration (type : Ty) (raw : Int)
  /-- The handle of a type. -/
  | handle (type : Ty)

namespace Constant

/-- The type of a constant. Null is an object. -/
def type : Constant → Ty
  | .null => .object
  | .scalar s => .primitive s.kind
  | .char _ => .primitive .char
  | .text _ => .string
  | .enumeration t _ => t
  | .handle _ => .typeToken

/-- The constant that a raw enumeration value is loaded as. -/
def ofRaw (kind : ScalarKind) (raw : Int) : Constant :=
  match kind with
  | .bool => .scalar (.bool (raw != 0))
  | .char => .char (Char.ofNat (BitVec.ofInt 32 raw).toNat)
  | .word k => .scalar (.wrap k raw)
  | .float k => .scalar (.float k (k.encode (.ofInt raw)))

end Constant

end Stackwright
