import Stackwright.Scalar.Basic
import Stackwright.Ty.Basic

/-! # Values

A **value** is whatever a slot, a field or the evaluation stack can hold. Scalars, strings, type handles
and structs are held outright; arrays, objects and boxes are held by a **reference** into the heap; an
**address** names a location that holds a value. An enumeration value is its underlying scalar: only
a box remembers the enumeration. -/

namespace Stackwright

/-- A reference to an array in the heap. -/
structure ArrayId where
  /-- The number of the cell. -/
  index : Nat
  deriving DecidableEq

/-- A reference to an object in the heap. -/
structure ObjectId where
  /-- The number of the cell. -/
  index : Nat
  deriving DecidableEq

/-- A reference to a box in the heap. -/
structure BoxId where
  /-- The number of the cell. -/
  index : Nat
  deriving DecidableEq

/-- A **location** that holds a value. -/
inductive Location
  /-- An argument of the running procedure. -/
  | argument (index : Nat)
  /-- A local of the running procedure. -/
  | variable (index : Nat)
  /-- An item of an array. -/
  | element (array : ArrayId) (index : Nat)
  /-- The content of a box. -/
  | boxed (box : BoxId)
  deriving DecidableEq

/-- A **value**. -/
inductive Value where
  /-- The null reference. -/
  | null
  /-- A value of a scalar kind. -/
  | scalar (value : Scalar)
  /-- A string. -/
  | text (value : String)
  /-- A handle of a type. -/
  | handle (type : Ty)
  /-- A reference to an array. -/
  | array (id : ArrayId)
  /-- A reference to an object. -/
  | object (id : ObjectId)
  /-- A struct with its field values. -/
  | struct (type : Ty) (fields : List Value)
  /-- A reference to a box. -/
  | boxed (id : BoxId)
  /-- The address of a location. -/
  | address (location : Location)

namespace Value

instance : Inhabited Value := ⟨.null⟩

/-- A truth value. -/
abbrev ofBool (b : Bool) : Value := .scalar (.bool b)

/-- A signed 32-bit integer. -/
abbrev ofInt32 (n : Int) : Value := .scalar (.i32 n)

/-- Whether the value is null. -/
def isNull : Value → Bool
  | .null => true
  | _ => false

/-- The kind of a scalar. -/
def kind? : Value → Option ScalarKind
  | .scalar s => some s.kind
  | _ => none

/-- The number a scalar stands for. -/
def number? : Value → Option Number
  | .scalar s => some s.toNumber
  | _ => none

/-- The string a value is. -/
def text? : Value → Option String
  | .text s => some s
  | _ => none

/-! ## Zero values -/

mutual

/-- The **zero** of a type, which every new slot, field and item of the type holds: a zero scalar, a
struct of zeros, or null. -/
def zeroOf : Ty → Value
  | .primitive p | .enumeration _ p _ _ => .scalar (.zero p)
  | .struct path interfaces fields => .struct (.struct path interfaces fields) (zerosOf fields)
  | .object | .string | .array _ | .interface .. | .klass .. => .null

/-- The zeros of a list of fields. -/
def zerosOf : List (String × Ty) → List Value
  | [] => []
  | (_, type) :: rest => zeroOf type :: zerosOf rest

end

theorem zerosOf_eq (fields : List (String × Ty)) :
    zerosOf fields = fields.map fun f => zeroOf f.2 := by
  induction fields with
  | nil => simp [zerosOf]
  | cons f rest ih => simp [zerosOf, ih]

/-- Reference types start out as null. -/
theorem zeroOf_reference {t : Ty} (h : t.isReference) : zeroOf t = .null := by
  cases t <;> first | rfl | simp [Ty.isReference, Ty.isValue, Ty.kind,
    TyKind.isValue] at h

/-! ## Conversion -/

/-- A scalar **converted** to a kind; other values have no conversion. -/
def convert? : Value → ScalarKind → Option Value
  | .scalar s, k => some (.scalar (s.convert k))
  | _, _ => none

/-- A value made to **fit** a location of a declared scalar kind. Where no kind is declared, or the
value is not primitive, it is left alone. -/
def fit : Option ScalarKind → Value → Value
  | some k, .scalar s => .scalar (s.convert k)
  | _, v => v

@[simp] theorem fit_none (v : Value) : fit none v = v := by cases v <;> rfl

@[simp] theorem fit_scalar (k : ScalarKind) (s : Scalar) :
    fit (some k) (.scalar s) = .scalar (s.convert k) := rfl

/-- A scalar that fits a kind is of that kind. -/
theorem kind?_fit {k : ScalarKind} {v : Value} (h : v.kind?.isSome) :
    (fit (some k) v).kind? = some k := by
  cases v <;> simp_all [kind?]

/-- The condition a branch reads off a value: null and zero are false. Floats and structs are no
conditions. -/
def condition? : Value → Option Bool
  | .null => some false
  | .scalar (.float ..) | .struct .. => none
  | .scalar s => some (s.toNumber.toInteger != 0)
  | .text _ | .handle _ | .array _ | .object _ | .boxed _ | .address _ => some true

/-- The index a value denotes: the integer it stands for, read as a signed 64-bit word. -/
def index? : Value → Option Int
  | .scalar s =>
    match s.toNumber with
    | .int n => some (BitVec.ofInt 64 n).toInt
    | .float _ => none
  | _ => none

end Value

end Stackwright
