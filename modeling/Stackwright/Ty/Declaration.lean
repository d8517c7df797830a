import Stackwright.Ty.Basic

/-! # Declaring types

A **declaration** collects what a new type consists of: its form and path, then, in any order, a base,
interfaces and fields. Only a class uses the base; the other forms have a fixed one. -/

namespace Stackwright

/-- The **forms** of type a declaration can describe. -/
inductive TyForm
  /-- A class. -/
  | klass
  /-- A struct. -/
  | struct
  /-- An interface. -/
  | interface
  /-- An enumeration stored as a scalar kind. -/
  | enumeration (underlying : ScalarKind)
  deriving DecidableEq

/-- A type being declared. -/
structure Declaration where
  /-- What the type will be. -/
  form : TyForm
  /-- The path of the type. -/
  path : String
  /-- The base of a class. -/
  base : Ty := .object
  /-- The interfaces, in the order they were added. -/
  interfaces : List Ty := []
  /-- The fields of the type itself, in the order they were added. -/
  fields : List (String × Ty) := []

namespace Declaration

/-- Sets the base. -/
def withBase (d : Declaration) (base : Ty) : Declaration := { d with base }

/-- Adds an interface after those already listed. -/
def withInterface (d : Declaration) (i : Ty) : Declaration :=
  { d with interfaces := d.interfaces ++ [i] }

/-- Adds a field after those already declared. -/
def withField (d : Declaration) (name : String) (type : Ty) : Declaration :=
  { d with fields := d.fields ++ [(name, type)] }

/-- The declared type. -/
def toTy (d : Declaration) : Ty :=
  match d.form with
  | .klass => .klass d.path d.base d.interfaces d.fields
  | .struct => .struct d.path d.interfaces d.fields
  | .interface => .interface d.path d.interfaces d.fields
  | .enumeration underlying => .enumeration d.path underlying d.interfaces d.fields

@[simp] theorem path_toTy (d : Declaration) : d.toTy.path = d.path := by
  unfold toTy; split <;> rfl

@[simp] theorem interfaces_toTy (d : Declaration) : d.toTy.interfaces = d.interfaces := by
  unfold toTy; split <;> rfl

end Declaration

end Stackwright
