import Stackwright.BuildError

/-! # Mnemonics

The names that transcripts give to instructions whose width depends on a type. Stores do not tell
signed from unsigned items. -/

namespace Stackwright

namespace Mnemonic

/-- The width and the interpretation of a kind. -/
def width : ScalarKind → String
  | .bool | .i8 => "i1"
  | .u8 => "u1"
  | .char | .i16 => "i2"
  | .u16 => "u2"
  | .i32 => "i4"
  | .u32 => "u4"
  | .i64 | .u64 => "i8"
  | .f32 => "r4"
  | .f64 => "r8"

/-- The width of a stored item. -/
def storedWidth : ScalarKind → String
  | .u8 => "i1"
  | .u16 => "i2"
  | .u32 => "i4"
  | k => width k

/-- A conversion to a kind. -/
def convert (k : ScalarKind) : String := "conv." ++ width k

/-- A read through an address. -/
def loadThrough (t : Ty) : String :=
  if t.isString then "ldind.ref" else
  match t.storedAs? with
  | some k => "ldind." ++ width k
  | none => "Ldobj " ++ t.path

/-- The part of an element instruction that depends on the items: structs have none. -/
def elementWidth (t : Ty) (ofKind : ScalarKind → String) : Except BuildError String :=
  match t.storedAs? with
  | some k => .ok (ofKind k)
  | none => if t.isReference then .ok "ref" else .error (.unsupportedElementType t)

/-- A load of an item. -/
def loadItem (t : Ty) : Except BuildError String :=
  ("ldelem." ++ ·) <$> elementWidth t width

/-- A store of an item. -/
def storeItem (t : Ty) : Except BuildError String :=
  ("stelem." ++ ·) <$> elementWidth t storedWidth

end Mnemonic

end Stackwright
