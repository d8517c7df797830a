import Stackwright.Emission.Basic

/-! # Slots and constants

Emission calls that **load** operands onto the evaluation stack and **store** from it: constants,
arguments, locals and type handles. -/

namespace Stackwright

namespace Emit

/-! ## Arguments -/

/-- The argument slot at a position of the procedure being built. -/
def arg (i : Nat) : Emit Argument := do
  let args := (← get).signature.args
  match args[i]? with
  | some t => pure ⟨i, t⟩
  | none => refuse (.unknownArgument i args.length)

/-- Loads an argument. -/
def loadArg (a : Argument) : Emit Unit := do
  let a ← arg a.index
  traced ("Ldarg " ++ toString a.index) (.loadArg a.index)

/-- Stores into an argument. -/
def storeArg (a : Argument) : Emit Unit := do
  let a ← arg a.index
  traced ("Starg " ++ toString a.index) (.storeArg a.index a.type.storedAs?)

/-- Loads the address of an argument. -/
def loadArgAddress (a : Argument) : Emit Unit := do
  let a ← arg a.index
  traced ("Ldarga " ++ toString a.index) (.addressArg a.index)

/-! ## Locals -/

/-- Declares a local. -/
def newLocal (t : Ty) (name : String) : Emit Local := do
  let index := (← get).locals.size
  modify fun s => { s with locals := s.locals.push (t, name) }
  note ("// Declare local '" ++ name ++ "' of type " ++ t.path)
  pure ⟨index, t⟩

/-- The name of a local in transcripts. -/
def nameOf (l : Local) : Emit String := do
  match (← get).locals[l.index]? with
  | some (_, name) => pure name
  | none => pure "?"

/-- Loads a local, and shows it. -/
def loadLocal (l : Local) : Emit Unit := do
  note ("Ldloc " ++ (← nameOf l))
  op (.loadLocal l.index)
  probe l.type

/-- Shows the top of the stack and stores it into a local. -/
def storeLocal (l : Local) : Emit Unit := do
  note ("Stloc " ++ (← nameOf l))
  probe l.type
  op (.storeLocal l.index l.type.storedAs?)

/-- Loads the address of a local, and shows it. -/
def loadLocalAddress (l : Local) : Emit Unit := do
  note ("Ldloca " ++ (← nameOf l))
  op (.addressLocal l.index)
  probe l.type

/-! ## Constants -/

/-- Loads a string. -/
def loadText (s : String) : Emit Unit := traced ("Ldstr " ++ s) (.push (.text s))

/-- Loads null. -/
def loadNull : Emit Unit := traced "Ldnull" (.push .null)

/-- Loads the token of a type. -/
def loadToken (t : Ty) : Emit Unit := traced ("Ldtoken " ++ t.path) (.push (.handle t))

/-- Calls a method on the operands on the stack. -/
def call (m : Method) : Emit Unit :=
  let how := if m.isVirtual then "Callvirt" else if m.isStatic then "Static Call" else "Call"
  traced (how ++ " " ++ m.text ++ " on type " ++ m.owner.path) (.call m)

/-- Loads a 32-bit integer. -/
def loadInt (n : Int) : Emit Unit := traced ("Ldc.i4 " ++ toString n) (.push (.ofInt32 n))

/-- Loads a primitive constant. The kinds narrower than 32 bits are loaded widened, truth values
excepted; unsigned constants are written as signed ones. -/
def loadScalar (s : Scalar) : Emit Unit :=
  match s with
  | .bool b => traced ("Ldc.i4 " ++ (if b then "1" else "0")) (.push (.scalar s))
  | .word .char _ => refuse (.unsupportedConstant .char)
  | .word .u32 v => traced ("Ldc.i4 " ++ toString v.toInt) (.push (.scalar s))
  | .word .i64 v => traced ("Ldc.i8 " ++ toString v.toInt) (.push (.scalar s))
  | .word .u64 v => traced ("Ldc.i8 " ++ toString v.toInt) (.push (.scalar s))
  | .word k v => loadInt (Scalar.wordValue k v)
  | .float .single v =>
    traced ("Ldc.r4 " ++ FloatStyle.plain.write .single (FloatKind.single.decode v))
      (.push (.scalar s))
  | .float .double v =>
    traced ("Ldc.r8 " ++ FloatStyle.plain.write .double (FloatKind.double.decode v))
      (.push (.scalar s))

/-- Loads a **constant**. An enumeration member is loaded as its underlying kind. -/
def loadConstant : Constant → Emit Unit
  | .null => loadNull
  | .text s => loadText s
  | .char _ => refuse (.unsupportedConstant .char)
  | .scalar s => loadScalar s
  | .handle t => do
    loadToken t
    call Builtin.typeOfHandle
  | .enumeration t raw => do
    note ("// Ldc " ++ t.path ++ "." ++ toString raw)
    match t.enumKind with
    | .error e => refuse (.typeKind e)
    | .ok kind =>
      match Constant.ofRaw kind raw with
      | .scalar s => loadScalar s
      | _ => refuse (.unsupportedConstant .char)

/-! ## Operands -/

/-- **Loads** an operand. -/
def load : Operand → Emit Unit
  | .constant c => loadConstant c
  | .argument a => loadArg a
  | .variable l => loadLocal l

/-- **Stores** into an operand, which must be a slot. -/
def store : Operand → Emit Unit
  | .argument a => storeArg a
  | .variable l => storeLocal l
  | .constant c => refuse (.invalidStoreTarget c.type)

/-- Loads the address of a slot of a value type, or else the operand itself. -/
def loadByAddress : Operand → Emit Unit
  | .argument a => if a.type.isValue then loadArgAddress a else loadArg a
  | .variable l => if l.type.isValue then loadLocalAddress l else loadLocal l
  | .constant c => loadConstant c

/-- Adds one to a slot. -/
def increment (o : Operand) : Emit Unit := do
  load o
  loadInt 1
  traced "Add" .add
  store o

/-- Subtracts one from a slot. -/
def decrement (o : Operand) : Emit Unit := do
  load o
  loadInt 1
  traced "Sub" .sub
  store o

/-! ## Default values -/

/-- Writes the zero of a type through an address. -/
def zeroThrough (t : Ty) : Emit Unit := traced ("Initobj " ++ t.path) (.zeroThrough t)

/-- Loads the **zero** of a type. The zero of a struct comes from a local of its own. -/
def loadZero (t : Ty) : Emit Unit :=
  match t.storedAs? with
  | some .bool => loadScalar (.bool false)
  | some .i64 | some .u64 => loadScalar (.wrap .i64 0)
  | some (.float k) => loadScalar (.zero (.float k))
  | some (.word _) => loadInt 0
  | none =>
    if t.isValue then do
      let zero ← newLocal t "zero"
      loadByAddress (.variable zero)
      zeroThrough t
      load (.variable zero)
    else loadNull

end Emit

end Stackwright
