import Stackwright.Ty.Basic

/-! # Faults

A **fault** is why running a procedure stops without a value. Each constructor is one cause; the
wording is in `Fault.message` alone. -/

namespace Stackwright

/-- Why a run **fails**. -/
inductive Fault
  /-- Something was done to null. -/
  | nullReference
  /-- A value is not of the type it was cast to; it is described by its type or, lacking one, shown. -/
  | invalidCast (source : String) (target : Ty)
  /-- An index or a slot is outside its container. -/
  | indexOutOfRange (index : Int) (length : Nat)
  /-- An instruction needs more operands than the stack holds. -/
  | stackUnderflow
  /-- A call was given the wrong number of arguments. -/
  | argumentCount (expected found : Nat)
  /-- A value is of no use to the instruction, which wants something else. -/
  | typeMismatch (expected found : String)
  /-- The procedure threw a value. -/
  | thrown (text : String)
  /-- A host body refused its arguments. -/
  | host (text : String)

/-- A position as an **index**: a signed 64-bit word. -/
def indexOf (position : Nat) : Int := (BitVec.ofNat 64 position).toInt

/-- A position outside its container, reported as an index. -/
def Fault.outside (position length : Nat) : Fault := .indexOutOfRange (indexOf position) length

/-- The text of a fault. -/
def Fault.message : Fault → String
  | .nullReference => "object reference not set to an instance of an object"
  | .invalidCast source target => "unable to cast `" ++ source ++ "` to `" ++ target.path ++ "`"
  | .indexOutOfRange index length =>
    "index " ++ toString index ++ " is outside the bounds of an array of length " ++ toString length
  | .stackUnderflow => "evaluation stack underflow"
  | .argumentCount expected found =>
    "expected " ++ toString expected ++ " arguments, found " ++ toString found
  | .typeMismatch expected found => "expected " ++ expected ++ ", found `" ++ found ++ "`"
  | .thrown text => "procedure threw: " ++ text
  | .host text => "host accessor failed: " ++ text

end Stackwright
