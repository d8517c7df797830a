import Stackwright.Method

/-! # Fields, properties and members

The **data members** of types: fields, which are kept in a slot of every instance or once for the type,
and properties, which are read and written by methods. A member is either of them, or a method whose
result is read. -/

namespace Stackwright

/-! ## Fields -/

/-- Where a field is **kept**. -/
inductive Storage
  /-- In a slot of every instance. -/
  | slot (index : Nat)
  /-- Once for the type. -/
  | static (id : StaticId)
  deriving DecidableEq

/-- A **field**. -/
structure Field where
  /-- The type the field belongs to. -/
  owner : Ty
  /-- Its name. -/
  name : String
  /-- The type of its value. -/
  type : Ty
  /-- Where it is kept. -/
  storage : Storage

namespace Field

/-- The instance field of a name, if the type has one. -/
def ofName? (owner : Ty) (name : String) : Option Field := do
  let slot ← owner.slotOf? name
  let (name, type) ← owner.fields[slot]?
  pure ⟨owner, name, type, .slot slot⟩

/-- The storage of a field that is kept once for the type. -/
def staticId? (f : Field) : Option StaticId :=
  match f.storage with
  | .static id => some id
  | .slot _ => none

/-- Whether the field is kept once for the type. -/
def isStatic (f : Field) : Bool := f.staticId?.isSome

/-- The text of a field: its type and name. -/
def text (f : Field) : String := f.type.path ++ " " ++ f.name

end Field

/-! ## Properties and members -/

/-- A **property**: a value read and written by methods. -/
structure Property where
  /-- The type the property belongs to. -/
  owner : Ty
  /-- Its name. -/
  name : String
  /-- The type of its value. -/
  type : Ty
  /-- The method that reads it, if there is one. -/
  getter : Option Method
  /-- The method that writes it, if there is one. -/
  setter : Option Method

/-- A **member**. -/
inductive Member
  /-- A field. -/
  | field (field : Field)
  /-- A property. -/
  | property (property : Property)
  /-- A method whose result is read. -/
  | method (method : Method)

namespace Member

/-- The name of a member. -/
def name : Member → String
  | .field f => f.name
  | .property p => p.name
  | .method m => m.name

/-- The type a member belongs to. -/
def owner : Member → Ty
  | .field f => f.owner
  | .property p => p.owner
  | .method m => m.owner

/-- The type of the value a member yields, if it yields one. -/
def type? : Member → Option Ty
  | .field f => some f.type
  | .property p => some p.type
  | .method m => m.ret

/-- Whether a member has no receiver; a property goes by its getter, or else by its setter. -/
def isStatic : Member → Bool
  | .field f => f.isStatic
  | .property p =>
    match p.getter, p.setter with
    | some m, _ | none, some m => m.isStatic
    | none, none => false
  | .method m => m.isStatic

end Member

end Stackwright
