import Stackwright.Emission.Objects

/-! # Arrays

Emission calls that make arrays and move their items. Items of a struct type go through their address;
the untyped base of all arrays is stored into by a method. -/

namespace Stackwright

namespace Emit

/-- Makes an array of a length. -/
def makeArray (element : Ty) (length : Operand) : Emit Unit := do
  load length
  traced ("Newarr " ++ element.path) (.makeArray element)

/-- Replaces an array by its length. -/
def loadLength : Emit Unit := do
  traced "Ldlen" .itemCount
  traced "Conv.i4" (.convert .i32)

/-- Replaces an array and an index by the item, and shows it. -/
def loadItem (element : Ty) : Emit Unit := do
  traced (← ofExcept (Mnemonic.loadItem element)) .loadItem
  probe element

/-- Replaces an array and an index by the address of the item, and shows it. -/
def loadItemAddress (element : Ty) : Emit Unit := do
  traced "ldelema" .addressItem
  probe element

/-- Shows the top of the stack and stores it into an array at an index. -/
def storeItem (element : Ty) : Emit Unit := do
  note (← ofExcept (Mnemonic.storeItem element))
  probe element
  op (.storeItem element.storedAs?)

/-- The element type of an array operand. -/
def itemTypeOf (array : Operand) : Emit Ty :=
  match array.type.itemType with
  | .ok t => pure t
  | .error e => refuse (.typeKind e)

/-- Loads an **item** of an array operand. -/
def loadItemOf (array index : Operand) : Emit Unit := do
  let element ← itemTypeOf array
  load array
  load index
  if element.isStruct then
    loadItemAddress element
    loadThrough element
  else loadItem element

/-- Stores into a typed array operand. -/
def storeTypedItem (array index value : Operand) : Emit Unit := do
  let element ← itemTypeOf array
  load array
  load index
  if element.isStruct then loadItemAddress element
  load value
  convertTop value.type element
  if element.isStruct then storeThrough element else storeItem element

/-- Stores an operand into an **item** of an array operand. -/
def storeItemOf (array index value : Operand) : Emit Unit :=
  if array.type == .arrayBase then
    callWith (some array) Builtin.storeItem [value, index]
  else storeTypedItem array index value

end Emit

end Stackwright
