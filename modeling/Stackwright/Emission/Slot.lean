import Stackwright.Emission.Constant

/-! # Slots and operands

The **slots** that hold the arguments and the locals of a procedure, and the **operands** that emission
calls are given to work on: constants and slots. Every operand has a type. -/

namespace Stackwright

/-- An **argument** of the procedure being built. -/
structure Argument where
  /-- Its position. -/
  index : Nat
  /-- Its type. -/
  type : Ty

/-- A **local** of the procedure being built. -/
structure Local where
  /-- Its position. -/
  index : Nat
  /-- Its type. -/
  type : Ty

/-- An **operand** of an emission call. -/
inductive Operand
  /-- A constant. -/
  | constant (value : Constant)
  /-- An argument. -/
  | argument (slot : Argument)
  /-- A local. -/
  | variable (slot : Local)

namespace Operand

/-- The type of an operand. -/
def type : Operand → Ty
  | .constant c => c.type
  | .argument a => a.type
  | .variable l => l.type

/-- Whether the operand is the null constant. -/
def isNull : Operand → Bool
  | .constant .null => true
  | _ => false

end Operand

end Stackwright
