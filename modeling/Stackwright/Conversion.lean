import Stackwright.BuildError
import Stackwright.Ty.Acceptance

/-! # Coercions

Which **conversion** takes a value of one type to a location of another. Between the same types nothing
happens; between value types the number is converted; a reference is unboxed to a value type it may
hold; a value is boxed, and a reference kept, for a reference type that accepts it; a reference that may
turn out to fit, or any conversion to or from an interface, is checked when the procedure runs. -/

namespace Stackwright

/-- A **conversion** of an operand on the stack. -/
inductive Conversion
  /-- Nothing, the types are the same. -/
  | identity
  /-- Nothing, the target accepts every value of the source. -/
  | upcast
  /-- A conversion to a scalar kind. -/
  | numeric (kind : ScalarKind)
  /-- Opens a box; what it holds is then read through unless its address is wanted. -/
  | openBox (target : Ty) (readThrough : Bool)
  /-- Makes a box, after reading the value when its address is given. -/
  | box (source : Ty) (loadFirst : Bool)
  /-- A check when the procedure runs. -/
  | cast (target : Ty)

namespace Conversion

/-- The conversion **to a value type**. -/
def toValue (source target : Ty) (isAddress : Bool) : Except BuildError Conversion :=
  if source.isValue then
    match target.storedAs? with
    | some k => .ok (.numeric k)
    | none => .error (.unsupportedConversion source target)
  else if source.accepts target then .ok (.openBox target (!isAddress))
  else .error (.incompatibleTypes source target)

/-- The conversion **to a reference type**. -/
def toReference (source target : Ty) (isAddress : Bool) : Except BuildError Conversion :=
  if target.accepts source then
    .ok (if source.isValue then .box source isAddress else .upcast)
  else if source.accepts target || target.isInterface || source.isInterface then
    .ok (.cast target)
  else .error (.incompatibleTypes source target)

/-- The conversion of an operand, given by its address if `isAddress`, from one type to another. -/
def between (source target : Ty) (isAddress : Bool) : Except BuildError Conversion :=
  if source == target then .ok .identity
  else if target.isValue then toValue source target isAddress
  else toReference source target isAddress

end Conversion

end Stackwright
