import Stackwright.Code.Marks
import Stackwright.Comparison
import Stackwright.Field

/-! # Instructions

The **instructions** a procedure consists of: operations that work on the evaluation stack and go on
with the next instruction, jumps, and the return. Jumps are written over labels while the procedure is
being built, and over positions once it is linked. -/

namespace Stackwright

/-- An **operation** on the evaluation stack. -/
inductive Op
  /-- Pushes a constant. -/
  | push (value : Value)
  /-- Pushes an argument. -/
  | loadArg (index : Nat)
  /-- Pops into an argument of some scalar kind. -/
  | storeArg (index : Nat) (kind : Option ScalarKind)
  /-- Pushes the address of an argument. -/
  | addressArg (index : Nat)
  /-- Pushes a local. -/
  | loadLocal (index : Nat)
  /-- Pops into a local of some scalar kind. -/
  | storeLocal (index : Nat) (kind : Option ScalarKind)
  /-- Pushes the address of a local. -/
  | addressLocal (index : Nat)
  /-- Adds two numbers. -/
  | add
  /-- Subtracts the upper number from the lower one. -/
  | sub
  /-- Conjoins two integers bit by bit. -/
  | and
  /-- Disjoins two integers bit by bit. -/
  | or
  /-- Negates an integer bit by bit. -/
  | not
  /-- Tests the identity of two values. -/
  | identical
  /-- Pushes the top again. -/
  | dup
  /-- Removes the top. -/
  | pop
  /-- Converts a scalar. -/
  | convert (kind : ScalarKind)
  /-- Puts a value into a new box. -/
  | box (type : Ty)
  /-- Replaces a box by the address of its content. -/
  | openBox (type : Ty)
  /-- Reads through an address. -/
  | loadThrough
  /-- Writes through an address to a location of some scalar kind. -/
  | storeThrough (kind : Option ScalarKind)
  /-- Checks the runtime type. -/
  | checkCast (type : Ty)
  /-- Writes the zero of a type through an address. -/
  | zeroThrough (type : Ty)
  /-- Makes an instance. -/
  | instantiate (maker : Constructor)
  /-- Calls a method. -/
  | call (method : Method)
  /-- Makes an array of zeros. -/
  | makeArray (element : Ty)
  /-- Replaces an array by its length. -/
  | itemCount
  /-- Replaces an array and an index by the item. -/
  | loadItem
  /-- Replaces an array and an index by the address of the item. -/
  | addressItem
  /-- Stores into an array whose items are of some scalar kind. -/
  | storeItem (kind : Option ScalarKind)
  /-- Replaces a receiver by a field. -/
  | getField (field : Field)
  /-- Stores into a field of a receiver. -/
  | putField (field : Field)
  /-- Pushes a static field. -/
  | getStatic (field : Field)
  /-- Stores into a static field. -/
  | putStatic (field : Field)
  /-- Throws a value. -/
  | throw

/-- A **jump** over targets of some type. -/
inductive Jump (τ : Type)
  /-- Goes to the target. -/
  | always (target : τ)
  /-- Goes there when the popped condition is true. -/
  | ifTrue (target : τ)
  /-- Goes there when the popped condition is false. -/
  | ifFalse (target : τ)
  /-- Goes there when a comparison of two popped operands holds. -/
  | compare (comparison : Comparison) (target : τ)
  /-- Goes to the target that the popped index selects, if it selects one. -/
  | switch (targets : List τ)

/-- The targets of a jump. -/
def Jump.targets {τ : Type} : Jump τ → List τ
  | .always t | .ifTrue t | .ifFalse t | .compare _ t => [t]
  | .switch ts => ts

/-- A jump with its targets replaced, or the first error that one of them gives. -/
def Jump.mapTargets {τ σ : Type} (f : τ → Except BuildError σ) :
    Jump τ → Except BuildError (Jump σ)
  | .always t => .always <$> f t
  | .ifTrue t => .ifTrue <$> f t
  | .ifFalse t => .ifFalse <$> f t
  | .compare c t => .compare c <$> f t
  | .switch ts => .switch <$> ts.mapM f

/-- An **instruction**. -/
inductive Instruction (τ : Type)
  /-- Does something and goes on. -/
  | op (op : Op)
  /-- Goes on somewhere else. -/
  | jump (jump : Jump τ)
  /-- Returns from the procedure. -/
  | ret

/-- The targets of an instruction. -/
def Instruction.targets {τ : Type} : Instruction τ → List τ
  | .jump j => j.targets
  | .op _ | .ret => []

/-- An instruction with its labels replaced by positions. -/
def Instruction.link (labels : Marks) : Instruction Label → Except BuildError (Instruction Nat)
  | .op o => .ok (.op o)
  | .jump j => .jump <$> j.mapTargets labels.position
  | .ret => .ok .ret

end Stackwright
