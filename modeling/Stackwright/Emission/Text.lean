import Stackwright.Emission.Loops

/-! # Text

Emission calls that turn values into text, and the **tracers**, which use them to show the value on top
of the stack. What a tracer emits to show a value is itself not traced. -/

namespace Stackwright

namespace Emit

/-- Replaces two strings by the two in a row. -/
def joinTwo : Emit Unit := call Builtin.joinTwo

/-- Replaces three strings by the three in a row. -/
def joinThree : Emit Unit := call Builtin.joinThree

/-- Replaces a value by its text. -/
def toText (t : Ty) : Emit Unit := do
  if t.isString then pure ()
  else
    if t.isValue then makeBox t
    call Builtin.textOf

/-- Replaces an array by the text of its items, given how an item is turned into text. -/
def arrayText (t : Ty) (itemText : Emit Unit) : Emit Unit := do
  let array ← newLocal t "arrayVar"
  storeLocal array
  loadText "\x7b "
  let text ← newLocal .string "arrayValueString"
  storeLocal text
  let i ← newLocal (.primitive .i32) "i"
  let _ ← openFor (some i) (.constant (.scalar (.i32 0))) (.variable array)
  loadLocal text
  loadItemOf (.variable array) (.variable i)
  itemText
  loadText ", "
  joinThree
  storeLocal text
  closeFor
  loadLocal text
  loadText "\x7d"
  joinTwo

/-- Replaces a reference by its text, given how one that is not null is turned into text. -/
def referenceText (text : Emit Unit) : Emit Unit := do
  traced "Dup" .dup
  loadNull
  openIf .equalTo
  traced "Pop" .pop
  loadText "<null>"
  openElse
  text
  closeIf

/-- Replaces a value by its **full text**: null is spelled out, and arrays are shown item by item. -/
def toFullText : Ty → Emit Unit
  | .array element => referenceText (arrayText (.array element) (toFullText element))
  | t => do
    if t.isValue then
      makeBox t
      call Builtin.textOf
    else referenceText (call Builtin.textOf)

/-- The local that holds the operands of formatted text. -/
def formatArray : Emit Local := do
  match (← get).formatArray with
  | some l => pure l
  | none =>
    let l ← newLocal (.array .object) "stringFormatArray"
    modify fun s => { s with formatArray := some l }
    pure l

/-- Stores operands into an array local, from an index on. -/
def storeOperands (array : Local) : Nat → List Operand → Emit Unit
  | _, [] => pure ()
  | i, o :: rest => do
    storeItemOf (.variable array) (.constant (.scalar (.i32 i))) o
    storeOperands array (i + 1) rest

/-- Pushes a **formatted text** of operands. -/
def formatText (format : String) (operands : List Operand) : Emit Unit := do
  makeArray .object (.constant (.scalar (.i32 operands.length)))
  let array ← formatArray
  storeLocal array
  storeOperands array 0 operands
  loadText format
  loadLocal array
  call Builtin.fillText

/-- Reports the full text of the value on top of the stack, which stays. -/
def showTop (t : Ty) : Emit Unit := do
  traced "Dup" .dup
  toFullText t
  let top ← newLocal .string "topValue"
  storeLocal top
  loadText "//value = "
  loadLocal top
  joinTwo
  call (Builtin.report (← get).sink)

end Emit

/-- The **tracer** of a level. Only a full trace shows values. -/
def Tracer.ofLevel : TraceDetail → Tracer
  | .off => .silent
  | .log => ⟨.log, fun _ => pure ()⟩
  | .full => ⟨.full, fun t => (Emit.showTop t).run .silent⟩

end Stackwright
