import Stackwright.Ty.Basic

/-! # Signatures

The types a procedure or a method goes from and to, and how lists of types are written. -/

namespace Stackwright

/-- The argument and return types of a procedure. -/
structure Signature where
  /-- The types of the arguments. -/
  args : List Ty := []
  /-- The type of the returned value, if there is one. -/
  ret : Option Ty := none

/-- The paths of types, separated by commas. -/
def pathList (types : List Ty) : String := ", ".intercalate (types.map Ty.path)

/-- The texts of types in diagnostics, in brackets. -/
def debugList (types : List Ty) : String :=
  "[" ++ ", ".intercalate (types.map Ty.debug) ++ "]"

/-- The text of a return type in diagnostics. -/
def debugReturn : Option Ty → String
  | some t => "Some(" ++ t.debug ++ ")"
  | none => "None"

/-- The text of a signature in diagnostics. -/
def Signature.debug (s : Signature) : String :=
  "Signature \x7b args: " ++ debugList s.args ++ ", ret: " ++ debugReturn s.ret ++ " \x7d"

end Stackwright
