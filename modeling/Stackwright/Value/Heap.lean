import Stackwright.Fault
import Stackwright.Value.Basic

/-! # The heap

The **heap** holds what references refer to: arrays, objects and boxes, and the storage of static
fields. Cells are numbered in the order they are made and never go away; the type of a cell and the
number of its items never change. A reference that was never issued reads as an empty cell. -/

namespace Stackwright

/-- The storage of an **array**. -/
structure ArrayCell where
  /-- The declared type of the items. -/
  element : Ty
  /-- The items. -/
  items : Array Value

/-- The storage of an **object**. -/
structure ObjectCell where
  /-- The type of the object. -/
  type : Ty
  /-- The field values, by slot. -/
  fields : Array Value

/-- The storage of a **box**. -/
structure BoxCell where
  /-- The type the content was boxed as. -/
  type : Ty
  /-- The content. -/
  content : Value

/-- A reference to the storage of a static field. -/
structure StaticId where
  /-- The number of the cell. -/
  index : Nat
  deriving DecidableEq

/-- The **heap**. -/
structure Heap where
  /-- The arrays. -/
  arrays : Array ArrayCell := #[]
  /-- The objects. -/
  objects : Array ObjectCell := #[]
  /-- The boxes. -/
  boxes : Array BoxCell := #[]
  /-- The values of the static fields. -/
  statics : Array Value := #[]

namespace Heap

/-! ## Arrays -/

/-- The cell of an array. -/
def arrayCell (h : Heap) (a : ArrayId) : ArrayCell := h.arrays.getD a.index ⟨.object, #[]⟩

/-- A new array with the given items. -/
def allocArray (h : Heap) (element : Ty) (items : Array Value) : ArrayId × Heap :=
  (⟨h.arrays.size⟩, { h with arrays := h.arrays.push ⟨element, items⟩ })

/-- A new array of zeros. -/
def allocZeros (h : Heap) (element : Ty) (length : Nat) : ArrayId × Heap :=
  h.allocArray element (Array.replicate length (Value.zeroOf element))

/-- The number of items. -/
def itemCount (h : Heap) (a : ArrayId) : Nat := (h.arrayCell a).items.size

/-- The item at an index. -/
def getItem (h : Heap) (a : ArrayId) (i : Int) : Except Fault Value :=
  let items := (h.arrayCell a).items
  if i < 0 then .error (.indexOutOfRange i items.size) else
  match items[i.toNat]? with
  | some v => .ok v
  | none => .error (.indexOutOfRange i items.size)

/-- Refuses an index that no item has. -/
def checkItem (h : Heap) (a : ArrayId) (i : Int) : Except Fault Unit :=
  if 0 ≤ i ∧ i < h.itemCount a then .ok () else .error (.indexOutOfRange i (h.itemCount a))

/-- The heap with another item at an index. -/
def setItem (h : Heap) (a : ArrayId) (i : Int) (v : Value) : Heap :=
  { h with
    arrays := h.arrays.modify a.index fun cell =>
      { cell with items := cell.items.setIfInBounds i.toNat v } }

/-! ## Objects -/

/-- The cell of an object. -/
def objectCell (h : Heap) (o : ObjectId) : ObjectCell := h.objects.getD o.index ⟨.object, #[]⟩

/-- A new object of a type, every field zero. -/
def allocObject (h : Heap) (type : Ty) : ObjectId × Heap :=
  (⟨h.objects.size⟩,
    { h with objects := h.objects.push ⟨type, (Value.zerosOf type.fields).toArray⟩ })

/-- The field at a slot. -/
def getField (h : Heap) (o : ObjectId) (slot : Nat) : Except Fault Value :=
  let fields := (h.objectCell o).fields
  match fields[slot]? with
  | some v => .ok v
  | none => .error (.outside slot fields.size)

/-- Refuses a slot that the object does not have. -/
def checkField (h : Heap) (o : ObjectId) (slot : Nat) : Except Fault Unit :=
  let fields := (h.objectCell o).fields
  if slot < fields.size then .ok () else .error (.outside slot fields.size)

/-- The heap with another field at a slot. -/
def setField (h : Heap) (o : ObjectId) (slot : Nat) (v : Value) : Heap :=
  { h with
    objects := h.objects.modify o.index fun cell =>
      { cell with fields := cell.fields.setIfInBounds slot v } }

/-- The slot of a name, if the object has it. -/
def slotNamed? (h : Heap) (o : ObjectId) (name : String) : Option Nat := do
  let slot ← (h.objectCell o).type.slotOf? name
  if slot < (h.objectCell o).fields.size then some slot else none

/-- The field of a name, if the object has one. -/
def getField? (h : Heap) (o : ObjectId) (name : String) : Option Value := do
  (h.objectCell o).fields[← h.slotNamed? o name]?

/-! ## Boxes -/

/-- The cell of a box. -/
def boxCell (h : Heap) (b : BoxId) : BoxCell := h.boxes.getD b.index ⟨.object, .null⟩

/-- A new box. -/
def allocBox (h : Heap) (type : Ty) (content : Value) : BoxId × Heap :=
  (⟨h.boxes.size⟩, { h with boxes := h.boxes.push ⟨type, content⟩ })

/-- The content of a box. -/
def getBox (h : Heap) (b : BoxId) : Value := (h.boxCell b).content

/-- The heap with another content of a box. -/
def setBox (h : Heap) (b : BoxId) (v : Value) : Heap :=
  { h with boxes := h.boxes.modify b.index fun cell => { cell with content := v } }

/-! ## Static fields -/

/-- New storage for a static field. -/
def allocStatic (h : Heap) (v : Value) : StaticId × Heap :=
  (⟨h.statics.size⟩, { h with statics := h.statics.push v })

/-- The value of a static field. -/
def getStatic (h : Heap) (s : StaticId) : Value := h.statics.getD s.index .null

/-- The heap with another value of a static field. -/
def setStatic (h : Heap) (s : StaticId) (v : Value) : Heap :=
  { h with statics := h.statics.setIfInBounds s.index v }

/-! ## Runtime types -/

/-- The **runtime type** of a value; null and addresses have none. -/
def typeOf? (h : Heap) : Value → Option Ty
  | .null | .address _ => none
  | .scalar s => some (.primitive s.kind)
  | .text _ => some .string
  | .handle _ => some .typeToken
  | .array a => some (.array (h.arrayCell a).element)
  | .object o => some (h.objectCell o).type
  | .struct type _ => some type
  | .boxed b => some (h.boxCell b).type

end Heap

namespace Value

/-! ## Structs -/

/-- A new struct of a type, every field zero. -/
def newStruct (type : Ty) : Value := .struct type (zerosOf type.fields)

/-- The field of a name among the fields of a struct, if it is there. -/
def fieldNamed? (type : Ty) (fields : List Value) (name : String) : Option Value := do
  fields[← type.slotOf? name]?

/-- The fields of a struct with another field of a name, if it is there. -/
def setFieldNamed? (type : Ty) (fields : List Value) (name : String) (v : Value) :
    Option (List Value) := do
  let slot ← type.slotOf? name
  if slot < fields.length then some (fields.set slot v) else none

end Value

end Stackwright
