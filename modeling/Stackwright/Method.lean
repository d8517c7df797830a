import Stackwright.Ty.Signature
import Stackwright.World

/-! # Methods and constructors

What procedures **call**. The body of a method or constructor is a host computation on the argument
list. It yields a value and the arguments as it left them: a receiver can be changed in place. -/

namespace Stackwright

/-- The **body** of a method: its result, and the arguments as it left them. -/
abbrev HostBody := List Value → Host (Value × List Value)

/-! ## Methods -/

/-- A **method**. -/
structure Method where
  /-- The type the method belongs to. -/
  owner : Ty
  /-- Its name. -/
  name : String
  /-- The types of its parameters, without the receiver. -/
  params : List Ty
  /-- The type of its result, if there is one. -/
  ret : Option Ty
  /-- Whether it has no receiver. -/
  isStatic : Bool
  /-- What it does. -/
  body : HostBody

namespace Method

/-- Whether a call is resolved by the receiver, which then must not be null. -/
def isVirtual (m : Method) : Bool := !m.isStatic && m.owner.isReference

/-- The number of arguments a call takes from the stack, the receiver included. -/
def arity (m : Method) : Nat := m.params.length + (if m.isStatic then 0 else 1)

/-- The text of a method: result, name and parameters. -/
def text (m : Method) : String :=
  (match m.ret with
    | some t => t.path
    | none => "void") ++ " " ++ m.name ++ "(" ++ pathList m.params ++ ")"

/-- The text of a method in diagnostics. -/
def debug (m : Method) : String :=
  "MethodDesc \x7b declaring: " ++ m.owner.debug ++ ", name: " ++ Quoted.encode m.name ++
    ", params: " ++ debugList m.params ++ ", ret: " ++ debugReturn m.ret ++ ", is_static: " ++
    (if m.isStatic then "true" else "false") ++ ", .. \x7d"

/-- The result of a call and the arguments as the body left them. -/
def call (m : Method) (args : List Value) : Host (Value × List Value) := m.body args

end Method

/-! ## Constructors -/

/-- A **constructor**. -/
structure Constructor where
  /-- The type it makes instances of. -/
  owner : Ty
  /-- The types of its parameters, without the fresh instance. -/
  params : List Ty
  /-- What it does to the fresh instance, its first argument. -/
  body : HostBody

namespace Constructor

/-- The constructor that leaves the fresh instance alone. -/
def plain (owner : Ty) : Constructor := ⟨owner, [], fun args => pure (.null, args)⟩

/-- The text of a constructor: its parameters. -/
def text (c : Constructor) : String := "void .ctor(" ++ pathList c.params ++ ")"

/-- The text of a constructor in diagnostics. -/
def debug (c : Constructor) : String :=
  "ConstructorDesc \x7b declaring: " ++ c.owner.debug ++ ", params: " ++ debugList c.params ++
    ", .. \x7d"

/-- A **fresh instance** of a type: its zero, or a new object where the zero is null. -/
def fresh (t : Ty) : Host Value :=
  match Value.zeroOf t with
  | .null => return .object (← Host.allocate (·.allocObject t))
  | v => pure v

/-- A new instance: a fresh one as the body leaves it. -/
def make (c : Constructor) (params : List Value) : Host Value := do
  let made ← fresh c.owner
  let (_, args) ← c.body (made :: params)
  pure (args.headD .null)

end Constructor

end Stackwright
