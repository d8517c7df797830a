import Stackwright.Ty.Basic

/-! # Type names

How a type is **named** in text: by a name of the user's own, by a scalar kind, by a built-in type, or
by the name of its element and a pair of brackets. -/

namespace Stackwright

namespace Ty

/-- The scalar kind of a name. -/
def scalarKindNamed? (s : String) : Option ScalarKind := ScalarKind.all.find? (·.name == s)

/-- The built-in types by name. -/
def builtIns : List (String × Ty) :=
  [("object", .object), ("string", .string), ("value_type", valueType), ("enum", enumBase),
    ("array", arrayBase), ("type", typeToken)]

/-- The type of a name that is no array of another one. -/
def simpleNamed? (own : String → Option Ty) (s : String) : Option Ty :=
  own s <|> Ty.primitive <$> scalarKindNamed? s <|> builtIns.lookup s

/-- The type of a name given backwards. -/
def named? (own : String → Option Ty) : List Char → Option Ty
  | ']' :: '[' :: rest =>
    simpleNamed? own (String.ofList (']' :: '[' :: rest).reverse) <|> .array <$> named? own rest
  | reversed => simpleNamed? own (String.ofList reversed.reverse)

/-- The type that a text names. -/
def ofName? (own : String → Option Ty) (s : String) : Option Ty :=
  named? own s.toList.reverse

end Ty

end Stackwright
