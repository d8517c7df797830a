import Stackwright.Method
import Stackwright.Text.Filling
import Stackwright.Ty.Acceptance
import Stackwright.Value.Equality

/-! # Built-in methods

The methods that emission calls call on their own: text of values and strings, structural equality,
formatting, stores into arrays of unknown element type, type handles and trace reports. -/

namespace Stackwright

/-- The number of UTF-16 units of a text. -/
def unitCount (s : String) : Nat :=
  s.toList.foldl (fun n c => n + if c.toNat < 0x10000 then 1 else 2) 0

namespace Builtin

/-- The argument at a position, of the number a body expects. -/
def argument (args : List Value) (i expected : Nat) : Host Value :=
  match args[i]? with
  | some v => pure v
  | none => Host.fail (.argumentCount expected args.length)

/-- A body that only computes a result and leaves the arguments alone. -/
def pureBody (f : List Value → Host Value) : HostBody := fun args => do
  let v ← f args
  pure (v, args)

/-- The text of any value. -/
def textOf : Method where
  owner := .object
  name := "to_string"
  params := []
  ret := some .string
  isStatic := false
  body := pureBody fun args => do
    return .text (← Host.display (← argument args 0 1))

/-- Two texts in a row. -/
def joinTwo : Method where
  owner := .string
  name := "concat"
  params := [.string, .string]
  ret := some .string
  isStatic := true
  body := pureBody fun args => do
    let a ← argument args 0 2
    let b ← argument args 1 2
    return .text ((← Host.display a) ++ (← Host.display b))

/-- Three texts in a row. -/
def joinThree : Method where
  owner := .string
  name := "concat"
  params := [.string, .string, .string]
  ret := some .string
  isStatic := true
  body := pureBody fun args => do
    let a ← argument args 0 3
    let b ← argument args 1 3
    let c ← argument args 2 3
    return .text ((← Host.display a) ++ (← Host.display b) ++ (← Host.display c))

/-- The length of a string in UTF-16 units. -/
def textLength : Method where
  owner := .string
  name := "get_length"
  params := []
  ret := some (.primitive .i32)
  isStatic := false
  body := pureBody fun args => do
    let v ← argument args 0 1
    let s ← Host.expect "string" v v.text?
    return .ofInt32 (unitCount s)

/-- The string an operand is, which must not be null. -/
def formatArgument : Value → Host String
  | .text s => pure s
  | .null => Host.fail .nullReference
  | v => Host.unexpected "string" v

/-- The items of the array an operand is, which must not be null. -/
def itemsArgument : Value → Host (List Value)
  | .array a => return ((← Host.heap).arrayCell a).items.toList
  | .null => Host.fail .nullReference
  | v => Host.unexpected "object array" v

/-- A template filled with the items of an array. -/
def fillText : Method where
  owner := .string
  name := "format"
  params := [.string, .array .object]
  ret := some .string
  isStatic := true
  body := pureBody fun args => do
    let format ← formatArgument (← argument args 0 2)
    let items ← itemsArgument (← argument args 1 2)
    let h ← Host.heap
    return .text (← Host.ofExcept (Template.format format (items.map h.display)))

/-- Structural equality of two values. Null is equal to null alone. -/
def equals : Method where
  owner := .object
  name := "equals"
  params := [.object, .object]
  ret := some (.primitive .bool)
  isStatic := true
  body := pureBody fun args => do
    let a ← argument args 0 2
    let b ← argument args 1 2
    let h ← Host.heap
    return .ofBool (match a.isNull, b.isNull with
      | true, true => true
      | false, false => h.equal a b
      | _, _ => false)

/-- The array an operand is. -/
def arrayArgument : Value → Host ArrayId
  | .array a => pure a
  | v => Host.unexpected "array" v

/-- The value to store into an array for an operand: value items are unboxed, null stands for their
zero, and references must be assignable to the element type. -/
def itemFor (element : Ty) (v : Value) : Host Value := do
  let h ← Host.heap
  match v, element.isValue with
  | .null, true => pure (Value.zeroOf element)
  | .boxed b, true =>
    let found := (h.boxCell b).type
    if found.unboxesAs element then pure (h.getBox b)
    else Host.fail (.invalidCast found.path element)
  | v, _ =>
    match h.typeOf? v with
    | some found =>
      if element.accepts found then pure v
      else Host.fail (.invalidCast found.path element)
    | none => pure v

/-- A store into an array of unknown element type: receiver, value and index. -/
def storeItem : Method where
  owner := .arrayBase
  name := "set_value"
  params := [.object, .primitive .i32]
  ret := none
  isStatic := false
  body := pureBody fun args => do
    let a ← arrayArgument (← argument args 0 3)
    let position ← argument args 2 3
    let i ← Host.expect "integer" position position.index?
    let element := ((← Host.heap).arrayCell a).element
    let v ← itemFor element (← argument args 1 3)
    Host.setItem a i v
    pure .null

/-- The type handle for a loaded type. -/
def typeOfHandle : Method where
  owner := .typeToken
  name := "get_type_from_handle"
  params := [.typeToken]
  ret := some .typeToken
  isStatic := true
  body := pureBody fun args => argument args 0 1

/-- Reports a text to a sink. -/
def report (sink : Sink) : Method where
  owner := .object
  name := "trace_instruction"
  params := [.string]
  ret := none
  isStatic := true
  body := pureBody fun args => do
    let line ← Host.display (← argument args 0 1)
    modify fun w => w.report sink line
    pure .null

end Builtin

end Stackwright
