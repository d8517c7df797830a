import Stackwright.Code.Mnemonic
import Stackwright.Conversion
import Stackwright.Emission.Slots

/-! # Objects, calls and conversions

Emission calls that convert operands, make objects, call methods, and use the members of types. -/

namespace Stackwright

namespace Emit

/-! ## Boxes and addresses -/

/-- Puts the operand into a box of a type. -/
def makeBox (t : Ty) : Emit Unit := traced ("Box " ++ t.path) (.box t)

/-- Opens a box of a type. -/
def openBox (t : Ty) : Emit Unit := traced ("Unbox " ++ t.path) (.openBox t)

/-- Reads through an address. -/
def loadThrough (t : Ty) : Emit Unit := traced (Mnemonic.loadThrough t) .loadThrough

/-- Writes through an address. -/
def storeThrough (t : Ty) : Emit Unit :=
  traced ("Stobj " ++ t.path) (.storeThrough t.storedAs?)

/-- Checks that a reference is of a type. -/
def checkCast (t : Ty) : Emit Unit := traced ("Castclass " ++ t.path) (.checkCast t)

/-! ## Conversions -/

/-- Emits a **conversion**. -/
def applyConversion : Conversion → Emit Unit
  | .identity | .upcast => pure ()
  | .numeric k => traced (Mnemonic.convert k) (.convert k)
  | .openBox t readThrough => do
    openBox t
    if readThrough then loadThrough t
  | .box t loadFirst => do
    if loadFirst then loadThrough t
    makeBox t
  | .cast t => checkCast t

/-- Converts the operand, given by its address if `isAddress`, from one type to another. -/
def convert (source target : Ty) (isAddress : Bool) : Emit Unit := do
  applyConversion (← ofExcept (Conversion.between source target isAddress))

/-- Converts the operand from one type to another. -/
def convertTop (source target : Ty) : Emit Unit := convert source target false

/-- Converts the operand behind an address from one type to another. -/
def convertPointee (source target : Ty) : Emit Unit := convert source target true

/-- Stores an operand into a local, converted to its type. -/
def assign (l : Local) (o : Operand) : Emit Unit := do
  load o
  convertTop o.type l.type
  storeLocal l

/-- Declares a local and stores an operand into it. -/
def newLocalWith (t : Ty) (name : String) (init : Operand) : Emit Local := do
  let l ← newLocal t name
  assign l init
  pure l

/-! ## Calls -/

/-- Checks the number of operands for a method or constructor. -/
def requireCount (method : String) (declared supplied : Nat) : Emit Unit :=
  if declared = supplied then pure () else refuse (.arityMismatch method declared supplied)

/-- Loads an operand for a parameter. Null goes to any parameter. -/
def loadParameter (o : Operand) (t : Ty) : Emit Unit := do
  load o
  if o.isNull then pure () else convertTop o.type t

/-- Loads operands for parameters. -/
def loadParameters : List Operand → List Ty → Emit Unit
  | o :: os, t :: ts => do
    loadParameter o t
    loadParameters os ts
  | _, _ => pure ()

/-- Loads the receiver of a method: a value type by its address. -/
def loadReceiver (m : Method) (o : Operand) : Emit Unit := do
  loadByAddress o
  convertPointee o.type m.owner

/-- **Calls** a method on a receiver with operands for its parameters. A static method has no
receiver. -/
def callWith (receiver : Option Operand) (m : Method) (params : List Operand) : Emit Unit := do
  requireCount m.name m.params.length params.length
  match receiver with
  | some o => if m.isStatic then pure () else loadReceiver m o
  | none => pure ()
  loadParameters params m.params
  call m

/-- Makes an instance from operands for the parameters of a constructor. -/
def instantiate (c : Constructor) (params : List Operand) : Emit Unit := do
  requireCount (c.owner.path ++ "::.ctor") c.params.length params.length
  loadParameters params c.params
  traced ("Newobj " ++ c.text ++ " on type " ++ c.owner.path) (.instantiate c)

/-! ## Members -/

/-- Loads a field of the receiver on the stack, or a static field. -/
def getField (f : Field) : Emit Unit :=
  if f.isStatic then traced ("Ldsfld " ++ f.text ++ " on type " ++ f.owner.path) (.getStatic f)
  else traced ("Ldfld " ++ f.text ++ " on type " ++ f.owner.path) (.getField f)

/-- Stores into a field of the receiver on the stack, or into a static field. -/
def putField (f : Field) : Emit Unit :=
  if f.isStatic then
    traced ("Stsfld " ++ f.text ++ " on type " ++ f.owner.path) (.putStatic f)
  else traced ("Stfld " ++ f.text ++ " on type " ++ f.owner.path) (.putField f)

/-- The accessor of a member, which must be there. -/
def accessor (m : Member) (which : Accessor) : Option Method → Emit Method
  | some f => pure f
  | none => refuse (.missingAccessor m.owner m.name which)

/-- Loads a **member** of the receiver on the stack, shows it, and answers its type. -/
def getMember (m : Member) : Emit Ty := do
  let t ← match m with
    | .field f => do
      getField f
      pure f.type
    | .property p => do
      call (← accessor m .getter p.getter)
      pure p.type
    | .method f =>
      match f.ret with
      | some t => do
        call f
        pure t
      | none => refuse (.missingAccessor m.owner m.name .returnValue)
  probe t
  pure t

/-- Stores into a **member** of the receiver on the stack. -/
def putMember (m : Member) : Emit Unit := do
  match m with
  | .field f => putField f
  | .property p => call (← accessor m .setter p.setter)
  | .method _ => refuse (.missingAccessor m.owner m.name .setter)

end Emit

end Stackwright
