/-! # Scalar kinds

The twelve **scalar kinds** a slot, a field or an operand can be stored as: truth values, nine
kinds of machine **word** (a UTF-16 unit and eight integers) and two kinds of **float**. A kind says
how many bits a value takes, whether it is signed, and which kind it is widened to on the
evaluation stack. -/

namespace Stackwright

/-- The kinds stored as a **word**: one UTF-16 unit, or an integer of fixed width. -/
inductive WordKind
  /-- One UTF-16 unit. -/
  | char
  /-- A signed byte. -/
  | i8
  /-- An unsigned byte. -/
  | u8
  /-- A signed 16-bit integer. -/
  | i16
  /-- An unsigned 16-bit integer. -/
  | u16
  /-- A signed 32-bit integer. -/
  | i32
  /-- An unsigned 32-bit integer. -/
  | u32
  /-- A signed 64-bit integer. -/
  | i64
  /-- An unsigned 64-bit integer. -/
  | u64
  deriving DecidableEq

/-- The number of bits of a word. -/
def WordKind.bits : WordKind → Nat
  | .i8 | .u8 => 8
  | .char | .i16 | .u16 => 16
  | .i32 | .u32 => 32
  | .i64 | .u64 => 64

/-- Whether a word is read in two's complement. -/
def WordKind.signed : WordKind → Bool
  | .i8 | .i16 | .i32 | .i64 => true
  | .char | .u8 | .u16 | .u32 | .u64 => false

/-- The two binary floating-point formats. -/
inductive FloatKind
  /-- The 32-bit format. -/
  | single
  /-- The 64-bit format. -/
  | double
  deriving DecidableEq

/-- The number of bits of a float. -/
def FloatKind.bits : FloatKind → Nat
  | .single => 32
  | .double => 64

/-- A **scalar kind**. -/
inductive ScalarKind
  /-- A truth value. -/
  | bool
  /-- A UTF-16 unit or an integer. -/
  | word (kind : WordKind)
  /-- A floating-point number. -/
  | float (kind : FloatKind)
  deriving DecidableEq

namespace ScalarKind

@[match_pattern, inherit_doc WordKind.char] abbrev char : ScalarKind := .word .char
@[match_pattern, inherit_doc WordKind.i8] abbrev i8 : ScalarKind := .word .i8
@[match_pattern, inherit_doc WordKind.u8] abbrev u8 : ScalarKind := .word .u8
@[match_pattern, inherit_doc WordKind.i16] abbrev i16 : ScalarKind := .word .i16
@[match_pattern, inherit_doc WordKind.u16] abbrev u16 : ScalarKind := .word .u16
@[match_pattern, inherit_doc WordKind.i32] abbrev i32 : ScalarKind := .word .i32
@[match_pattern, inherit_doc WordKind.u32] abbrev u32 : ScalarKind := .word .u32
@[match_pattern, inherit_doc WordKind.i64] abbrev i64 : ScalarKind := .word .i64
@[match_pattern, inherit_doc WordKind.u64] abbrev u64 : ScalarKind := .word .u64
@[match_pattern, inherit_doc FloatKind.single] abbrev f32 : ScalarKind := .float .single
@[match_pattern, inherit_doc FloatKind.double] abbrev f64 : ScalarKind := .float .double

/-- Every scalar kind, in the order they are listed to a user. -/
def all : List ScalarKind :=
  [.bool, .char, .i8, .u8, .i16, .u16, .i32, .u32, .i64, .u64, .f32, .f64]

/-- No kind is missing from the list. -/
theorem mem_all (p : ScalarKind) : p ∈ all := by
  cases p with
  | bool => decide
  | word k => cases k <;> decide
  | float k => cases k <;> decide

/-- The name a kind is written by. -/
def name : ScalarKind → String
  | .bool => "bool"
  | .char => "char"
  | .i8 => "i8"
  | .u8 => "u8"
  | .i16 => "i16"
  | .u16 => "u16"
  | .i32 => "i32"
  | .u32 => "u32"
  | .i64 => "i64"
  | .u64 => "u64"
  | .f32 => "f32"
  | .f64 => "f64"

/-- The storage size in bits; a truth value takes a byte. -/
def bits : ScalarKind → Nat
  | .bool => 8
  | .word k => k.bits
  | .float k => k.bits

/-- Whether the kind holds negative numbers. -/
def isSigned : ScalarKind → Bool
  | .bool => false
  | .word k => k.signed
  | .float _ => true

/-- Whether the kind is one of the eight integer kinds; a UTF-16 unit is not counted. -/
def isInteger : ScalarKind → Bool
  | .bool | .char | .float _ => false
  | .word _ => true

/-- Whether the kind is a floating-point kind. -/
def isFloat : ScalarKind → Bool
  | .float _ => true
  | .bool | .word _ => false

/-- The kind a value takes part in arithmetic as: everything narrower than 32 bits is **widened** to
a signed 32-bit integer. -/
def widened : ScalarKind → ScalarKind
  | .bool | .char | .i8 | .u8 | .i16 | .u16 => .i32
  | wide => wide

/-- Widening twice changes nothing. -/
@[simp] theorem widened_widened (p : ScalarKind) : p.widened.widened = p.widened := by
  cases p with
  | bool => rfl
  | word k => cases k <;> rfl
  | float k => cases k <;> rfl

end ScalarKind

end Stackwright
