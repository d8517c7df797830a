import Stackwright.Scalar.Kind
import Stackwright.Text.Quoted

/-! # Type descriptors

A **type descriptor** says what a value may be: a scalar kind, an enumeration or a struct (the
*value types*), or a string, an object, a class, an interface or an array (the *reference types*).
Descriptors are compared by kind and path alone (`==`): two arrays of one element path are the same
type however often they are written down. Every descriptor has at most one **base**, and the chain of
bases ends at `object`. -/

namespace Stackwright

/-- The eight kinds of type descriptor. -/
inductive TyKind
  | primitive | enumeration | struct | string | object | klass | interface | array
  deriving DecidableEq

namespace TyKind

/-- The kinds whose values are copied rather than shared. -/
def isValue : TyKind → Bool
  | .primitive | .enumeration | .struct => true
  | .string | .object | .klass | .interface | .array => false

/-- The name of a kind. -/
def name : TyKind → String
  | .primitive => "Primitive"
  | .enumeration => "Enum"
  | .struct => "Struct"
  | .string => "String"
  | .object => "Object"
  | .klass => "Class"
  | .interface => "Interface"
  | .array => "Array"

end TyKind

/-- A query that only another **kind** of type can answer. -/
structure KindMismatch where
  /-- The kind the query is about. -/
  expected : TyKind
  /-- The kind of the type that was asked. -/
  received : TyKind
  deriving DecidableEq

/-- The text of a kind mismatch. -/
def KindMismatch.message (e : KindMismatch) : String :=
  "type kind mismatch: expected " ++ e.expected.name ++ ", received " ++ e.received.name

/-- A **type descriptor**. -/
inductive Ty where
  /-- The root of every type. -/
  | object
  /-- Immutable text. -/
  | string
  /-- A scalar kind. -/
  | primitive (kind : ScalarKind)
  /-- A one-dimensional array. -/
  | array (element : Ty)
  /-- An enumeration stored as a scalar kind. -/
  | enumeration (path : String) (underlying : ScalarKind) (interfaces : List Ty)
      (fields : List (String × Ty))
  /-- A struct, copied field by field. -/
  | struct (path : String) (interfaces : List Ty) (fields : List (String × Ty))
  /-- An interface; the interfaces it lists are those it extends. -/
  | interface (path : String) (interfaces : List Ty) (fields : List (String × Ty))
  /-- A class with its base; `fields` are its own, without the inherited ones. -/
  | klass (path : String) (base : Ty) (interfaces : List Ty)
      (fields : List (String × Ty))

namespace Ty

instance : Inhabited Ty := ⟨.object⟩

/-! ## Built-in types -/

/-- The abstract base of every value type. -/
def valueType : Ty := .klass "value_type" .object [] []

/-- The abstract base of every enumeration. -/
def enumBase : Ty := .klass "enum" valueType [] []

/-- The untyped base of every array. -/
def arrayBase : Ty := .klass "array" .object [] []

/-- The type of type handles. -/
def typeToken : Ty := .klass "type" .object [] []

/-! ## Identity -/

/-- The kind of a descriptor. -/
def kind : Ty → TyKind
  | .object => .object
  | .string => .string
  | .primitive _ => .primitive
  | .array _ => .array
  | .enumeration .. => .enumeration
  | .struct .. => .struct
  | .interface .. => .interface
  | .klass .. => .klass

/-- The path a descriptor is known and shown by. -/
def path : Ty → String
  | .object => "object"
  | .string => "string"
  | .primitive p => p.name
  | .array e => e.path ++ "[]"
  | .enumeration path .. | .struct path .. | .interface path .. | .klass path .. => path

/-- Two descriptors are **the same type** when their kinds and their paths agree. -/
def same (s t : Ty) : Bool := decide (s.kind = t.kind) && decide (s.path = t.path)

instance : BEq Ty := ⟨same⟩

theorem beq_iff {s t : Ty} : s == t ↔ s.kind = t.kind ∧ s.path = t.path := by
  show same s t = true ↔ _
  simp [same]

@[simp] theorem beq_rfl (t : Ty) : (t == t) = true := beq_iff.2 ⟨rfl, rfl⟩

theorem beq_comm (s t : Ty) : (s == t) = (t == s) := by
  rw [Bool.eq_iff_iff, beq_iff, beq_iff]
  exact ⟨fun h => ⟨h.1.symm, h.2.symm⟩, fun h => ⟨h.1.symm, h.2.symm⟩⟩

theorem beq_trans {s t u : Ty} (h : s == t) (h' : t == u) : s == u :=
  beq_iff.2 ⟨(beq_iff.1 h).1.trans (beq_iff.1 h').1, (beq_iff.1 h).2.trans (beq_iff.1 h').2⟩

/-! ## Queries -/

/-- Whether values of the type are copied. -/
def isValue (t : Ty) : Bool := t.kind.isValue

/-- Whether values of the type are shared. -/
def isReference (t : Ty) : Bool := !t.isValue

/-- Whether the type is a struct. -/
def isStruct (t : Ty) : Bool := t.kind == .struct

/-- Whether the type is an enumeration. -/
def isEnum (t : Ty) : Bool := t.kind == .enumeration

/-- Whether the type is an interface. -/
def isInterface (t : Ty) : Bool := t.kind == .interface

/-- Whether the type is an array. -/
def isArray (t : Ty) : Bool := t.kind == .array

/-- Whether the type is the string type. -/
def isString (t : Ty) : Bool := t.kind == .string

/-- The direct **base**; the root and the interfaces have none. -/
def base? : Ty → Option Ty
  | .object | .interface .. => none
  | .string => some .object
  | .primitive _ | .struct .. => some valueType
  | .enumeration .. => some enumBase
  | .array _ => some arrayBase
  | .klass _ base _ _ => some base

/-- The interfaces listed by the type itself. -/
def interfaces : Ty → List Ty
  | .enumeration _ _ interfaces _ | .struct _ interfaces _ | .interface _ interfaces _
  | .klass _ _ interfaces _ => interfaces
  | .object | .string | .primitive _ | .array _ => []

/-- The scalar kind a value of the type is **stored** as, for primitives and enumerations. -/
def storedAs? : Ty → Option ScalarKind
  | .primitive p | .enumeration _ p _ _ => some p
  | .object | .string | .array _ | .struct .. | .interface .. | .klass .. => none

/-- The element type of an array. -/
def itemType : Ty → Except KindMismatch Ty
  | .array e => .ok e
  | t => .error ⟨.array, t.kind⟩

/-- The kind of a primitive type. -/
def scalarKind : Ty → Except KindMismatch ScalarKind
  | .primitive p => .ok p
  | t => .error ⟨.primitive, t.kind⟩

/-- The kind an enumeration is stored as. -/
def enumKind : Ty → Except KindMismatch ScalarKind
  | .enumeration _ p _ _ => .ok p
  | t => .error ⟨.enumeration, t.kind⟩

/-! ## Fields -/

/-- The **fields**, inherited ones first. The position of a field is its slot in every instance. -/
def fields : Ty → List (String × Ty)
  | .klass _ base _ own => base.fields ++ own
  | .enumeration _ _ _ own | .struct _ _ own | .interface _ _ own => own
  | .object | .string | .primitive _ | .array _ => []

/-- A class continues the fields of its base. -/
@[simp] theorem fields_klass (path : String) (base : Ty) (interfaces : List Ty)
    (own : List (String × Ty)) :
    (klass path base interfaces own).fields = base.fields ++ own := rfl

/-- The slot of the **last** field of a name. -/
def lastIndex? (name : String) : List (String × Ty) → Option Nat
  | [] => none
  | f :: rest =>
    match lastIndex? name rest with
    | some i => some (i + 1)
    | none => if f.1 == name then some 0 else none

/-- The slot a name refers to: a redeclared name refers to its last declaration. -/
def slotOf? (t : Ty) (name : String) : Option Nat := lastIndex? name t.fields

/-- A slot that a name refers to exists and carries that name. -/
theorem lastIndex?_eq_some {name : String} {fs : List (String × Ty)} {i : Nat}
    (h : lastIndex? name fs = some i) : ∃ t, fs[i]? = some (name, t) := by
  induction fs generalizing i with
  | nil => simp [lastIndex?] at h
  | cons f rest ih =>
    rw [lastIndex?] at h
    split at h
    next j hj =>
      obtain ⟨t, ht⟩ := ih hj
      obtain rfl := Option.some.inj h
      exact ⟨t, by simpa using ht⟩
    next =>
      split at h
      next hf =>
        obtain rfl := Option.some.inj h
        exact ⟨f.2, by simp [← eq_of_beq hf]⟩
      next => simp at h

/-! ## Text -/

/-- The text of diagnostics. -/
def debug (t : Ty) : String := "TypeDesc(" ++ Quoted.encode t.path ++ ")"

end Ty

end Stackwright
