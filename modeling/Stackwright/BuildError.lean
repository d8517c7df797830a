import Stackwright.Code.Label
import Stackwright.Ty.Basic

/-! # Build errors

A **build error** is why a call that builds a procedure is refused. Each constructor is one cause; the
wording is in `BuildError.message` alone. -/

namespace Stackwright

/-- The kinds of structured **construct**. -/
inductive ConstructKind
  | conditional | counted | enumerated | switch | whileLoop
  deriving DecidableEq

/-- The name of a kind of construct. -/
def ConstructKind.name : ConstructKind → String
  | .conditional => "if"
  | .counted => "for"
  | .enumerated => "foreach"
  | .switch => "switch"
  | .whileLoop => "while"

/-- What a member can be used through. -/
inductive Accessor
  | getter | setter | returnValue
  deriving DecidableEq

/-- The name of an accessor. -/
def Accessor.name : Accessor → String
  | .getter => "getter"
  | .setter => "setter"
  | .returnValue => "return value"

/-- Why a call that builds a procedure is **refused**. -/
inductive BuildError
  /-- A construct is closed that is not the innermost open one. -/
  | structuralMismatch (expected : ConstructKind) (found : Option ConstructKind)
  /-- Constructs are open at the end of the procedure. -/
  | unclosedBlock (count : Nat) (innermost : ConstructKind)
  /-- A method or constructor is given the wrong number of operands. -/
  | arityMismatch (method : String) (declared supplied : Nat)
  /-- A value has no conversion to a value type. -/
  | unsupportedConversion (source target : Ty)
  /-- Two types have nothing to do with each other. -/
  | incompatibleTypes (source target : Ty)
  /-- A constant that no instruction loads. -/
  | unsupportedConstant (kind : ScalarKind)
  /-- Items that no element instruction moves. -/
  | unsupportedElementType (type : Ty)
  /-- A member is used through something it lacks. -/
  | missingAccessor (owner : Ty) (member : String) (accessor : Accessor)
  /-- A store into a constant. -/
  | invalidStoreTarget (type : Ty)
  /-- An argument that the procedure does not take. -/
  | unknownArgument (index count : Nat)
  /-- A label is marked a second time. -/
  | labelAlreadyMarked (label : Label)
  /-- A jump goes to a label that was never marked. -/
  | labelNotMarked (label : Label)
  /-- A label of another session. -/
  | unknownLabel (label : Label)
  /-- A type of another kind is needed. -/
  | typeKind (mismatch : KindMismatch)
  /-- The procedure is already built. -/
  | useAfterFinalize
  /-- An earlier call was refused. -/
  | sessionAborted

/-- The text of a build error. -/
def BuildError.message : BuildError → String
  | .structuralMismatch expected found =>
    "expecting end of " ++ expected.name ++ ", found " ++
      (match found with
        | some k => k.name
        | none => "empty block stack")
  | .unclosedBlock count innermost =>
    toString count ++ " block(s) still open at end of method, innermost is " ++ innermost.name
  | .arityMismatch method declared supplied =>
    "`" ++ method ++ "` declares " ++ toString declared ++ " parameters, but " ++
      toString supplied ++ " were supplied"
  | .unsupportedConversion source target =>
    "no conversion possible from `" ++ source.path ++ "` to `" ++ target.path ++ "`"
  | .incompatibleTypes source target =>
    "`" ++ target.path ++ "` is not assignable from `" ++ source.path ++ "`"
  | .unsupportedConstant kind =>
    "constants of type `" ++ kind.name ++ "` cannot be loaded directly"
  | .unsupportedElementType type =>
    "arrays of `" ++ type.path ++ "` are not supported by element instructions"
  | .missingAccessor owner member accessor =>
    "member `" ++ member ++ "` of `" ++ owner.path ++ "` has no " ++ accessor.name
  | .invalidStoreTarget type =>
    "data can only be stored into arguments or locals, got a constant of type `" ++ type.path ++ "`"
  | .unknownArgument index count =>
    "argument " ++ toString index ++ " does not exist, the method takes " ++ toString count
  | .labelAlreadyMarked label => "label " ++ label.text ++ " is already marked"
  | .labelNotMarked label => "label " ++ label.text ++ " is a branch target but was never marked"
  | .unknownLabel label => "label " ++ label.text ++ " was not defined by this session"
  | .typeKind mismatch => mismatch.message
  | .useAfterFinalize => "the method was already finalized"
  | .sessionAborted => "the session was aborted by an earlier error"

end Stackwright
