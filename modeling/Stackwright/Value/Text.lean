import Stackwright.Text.Quoted
import Stackwright.Value.Heap

/-! # Text of values

The two ways a value is written. **Display** is for users: it looks through boxes and shows an object, a
struct or an array by its type alone. The text of **diagnostics** shows the shape of a value down to
struct fields and box contents. A box may hold itself; both texts open at most as many boxes as the heap
has, which is all of them unless the boxes form a cycle. The text of diagnostics is written from left to
right, each part after what is there already, so that its cost is its length however deep the boxes go. -/

namespace Stackwright

namespace Heap

/-- How many boxes a text opens along one path before it stops. -/
def boxBudget (h : Heap) : Nat := h.boxes.size + 1

/-- The text of an array in diagnostics: element type and length. -/
def arrayDebug (h : Heap) (a : ArrayId) : String :=
  "ArrayRef(" ++ (h.arrayCell a).element.path ++ "[" ++ toString (h.itemCount a) ++ "])"

/-- The text of an object in diagnostics: its type and where it is kept. -/
def objectDebug (h : Heap) (o : ObjectId) : String :=
  "ObjectRef(" ++ (h.objectCell o).type.path ++ " @ 0x" ++
    String.ofList (Nat.toDigits 16 o.index) ++ ")"

/-- Writes a location for diagnostics after a text, given how a box is written after one. -/
def writePlace (h : Heap) (box : String → BoxId → String) (t : String) : Location → String
  | .argument i => t ++ "Arg(" ++ toString i ++ ")"
  | .variable i => t ++ "Local(" ++ toString i ++ ")"
  | .element a i => t ++ "Element(" ++ h.arrayDebug a ++ ", " ++ toString i ++ ")"
  | .boxed b => box (t ++ "Boxed(") b ++ ")"

mutual

/-- Writes a value for diagnostics after a text, given how a box is written after one. -/
def writeValue (h : Heap) (box : String → BoxId → String) (t : String) : Value → String
  | .null => t ++ "Null"
  | .scalar s => t ++ s.debug
  | .text s => t ++ "Str(" ++ Quoted.encode s ++ ")"
  | .handle ty => t ++ "Type(" ++ ty.debug ++ ")"
  | .array a => t ++ "Array(" ++ h.arrayDebug a ++ ")"
  | .object o => t ++ "Object(" ++ h.objectDebug o ++ ")"
  | .struct ty fields =>
    writeAll h box (t ++ "Struct(StructValue \x7b ty: " ++ ty.debug ++ ", fields: [") fields ++
      "] \x7d)"
  | .boxed b => box (t ++ "Boxed(") b ++ ")"
  | .address p => h.writePlace box (t ++ "Address(") p ++ ")"

/-- Writes several values for diagnostics after a text, with commas between them. -/
def writeAll (h : Heap) (box : String → BoxId → String) (t : String) : List Value → String
  | [] => t
  | [v] => writeValue h box t v
  | v :: w :: rest => writeAll h box (writeValue h box t v ++ ", ") (w :: rest)

end

/-- Writes a box for diagnostics after a text: its type and content, down to a number of boxes. -/
def writeBox (h : Heap) : Nat → String → BoxId → String
  | 0, t, _ => t ++ "BoxRef(..)"
  | n + 1, t, b =>
    let cell := h.boxCell b
    h.writeValue (h.writeBox n) (t ++ "BoxRef(" ++ cell.type.path ++ ": ") cell.content ++ ")"

/-- The text of a value in **diagnostics**. -/
def debug (h : Heap) (v : Value) : String := h.writeValue (h.writeBox h.boxBudget) "" v

/-- The text of a location in diagnostics. -/
def placeDebug (h : Heap) (p : Location) : String := h.writePlace (h.writeBox h.boxBudget) "" p

/-- The text of a value for users, given the text of boxes. -/
def displayWith (h : Heap) (box : BoxId → String) : Value → String
  | .null => ""
  | .scalar s => s.display
  | .text s => s
  | .handle t => t.path
  | .array a => (h.arrayCell a).element.path ++ "[]"
  | .object o => (h.objectCell o).type.path
  | .struct t _ => t.path
  | .boxed b => box b
  | .address p => "&" ++ h.placeDebug p

/-- The text of the content of a box for users. -/
def boxDisplay (h : Heap) : Nat → BoxId → String
  | 0, _ => ""
  | n + 1, b => h.displayWith (h.boxDisplay n) (h.getBox b)

/-- The text of a value **for users**. -/
def display (h : Heap) (v : Value) : String := h.displayWith (h.boxDisplay h.boxBudget) v

/-- Strings are displayed as they are. -/
@[simp] theorem display_text (h : Heap) (s : String) : h.display (.text s) = s := rfl

/-- Scalars are displayed without regard to the heap. -/
@[simp] theorem display_scalar (h : Heap) (s : Scalar) : h.display (.scalar s) = s.display := rfl

end Heap

end Stackwright
