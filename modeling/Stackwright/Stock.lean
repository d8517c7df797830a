import Stackwright.Machine.Run

/-! # Ready-made bodies

A stock of **host bodies** for methods and constructors: constants and arguments, fields of the
receiver by name, failures, text, enumerators over an array, and calls of finished procedures. The
receiver is the first argument. -/

namespace Stackwright

namespace Stock

/-- The argument at a position, which the body needs. -/
def argument (args : List Value) (i : Nat) : Host Value :=
  Builtin.argument args i (i + 1)

/-- The arguments with another receiver. -/
def withReceiver (args : List Value) (v : Value) : List Value :=
  match args with
  | [] => []
  | _ :: rest => v :: rest

/-- The outcome of looking a field up. -/
def named {α : Type} (name : String) : Option α → Host α
  | some a => pure a
  | none => Host.fail (.host ("no field " ++ name))

/-- The field of a name of an object or a struct. -/
def getNamed (v : Value) (name : String) : Host Value := do
  match v with
  | .object o => named name ((← Host.heap).getField? o name)
  | .struct t fields => named name (Value.fieldNamed? t fields name)
  | v => Host.unexpected "object or struct" v

/-- An object or a struct with another field of a name; an object is changed itself. -/
def setNamed (v : Value) (name : String) (new : Value) : Host Value := do
  match v with
  | .object o =>
    let slot ← named name ((← Host.heap).slotNamed? o name)
    Host.modifyHeap (·.setField o slot new)
    pure v
  | .struct t fields => return .struct t (← named name (Value.setFieldNamed? t fields name new))
  | v => Host.unexpected "object or struct" v

/-- An integer wrapped to 32 bits. -/
def wrap (n : Int) : Int := (BitVec.ofInt 32 n).toInt

/-- The low 32 bits of the number a value stands for; what is no number counts as zero. -/
def lowInt (v : Value) : Int :=
  match v.number? with
  | some n => wrap n.toInteger
  | none => 0

/-- The texts of all arguments, separated by bars. -/
def joined (args : List Value) : Host String := do
  let h ← Host.heap
  pure ("|".intercalate (args.map h.display))

/-- What kind of value a body is given: null, an address, a box of some type, or a value of one. -/
def kindText (h : Heap) (v : Value) : String :=
  match v, h.typeOf? v with
  | .address _, _ => "addr"
  | .boxed _, some t => "box " ++ t.path
  | _, some t => t.path
  | _, none => "null"

/-- The 32-bit integer that a decimal numeral with an optional sign denotes. -/
def parseInt? (s : String) : Option Int := do
  let (negative, digits) := match s.toList with
    | '-' :: rest => (true, rest)
    | '+' :: rest => (false, rest)
    | digits => (false, digits)
  let n ← Template.digits? digits
  let v : Int := if negative then -(n : Int) else n
  if wrap v = v then some v else none

/-! ## Bodies -/

/-- Yields null. -/
def null : HostBody := fun args => pure (.null, args)

/-- Yields one and the same value. -/
def constant (v : Value) : HostBody := fun args => pure (v, args)

/-- Yields an argument. -/
def select (i : Nat) : HostBody := fun args => return (← argument args i, args)

/-- Replaces the receiver by an argument. -/
def replace (i : Nat) : HostBody := fun args => do
  let v ← argument args i
  let _ ← argument args 0
  pure (.null, withReceiver args v)

/-- Yields a field of the receiver. -/
def get (name : String) : HostBody := fun args => return (← getNamed (← argument args 0) name, args)

/-- Sets a field of the receiver to an argument. -/
def set (name : String) (i : Nat) : HostBody := fun args => do
  let v ← argument args i
  let this ← setNamed (← argument args 0) name v
  pure (.null, withReceiver args this)

/-- Adds to an integer field of the receiver, and yields the sum. -/
def bump (name : String) (n : Int) : HostBody := fun args => do
  let old ← getNamed (← argument args 0) name
  let sum := Value.ofInt32 (wrap (lowInt old + n))
  let this ← setNamed (← argument args 0) name sum
  pure (sum, withReceiver args this)

/-- Refuses every call. -/
def refuse (text : String) : HostBody := fun _ => Host.fail (.host text)

/-- Yields the texts of all arguments. -/
def display : HostBody := fun args => return (.text (← joined args), args)

/-- Writes the texts of all arguments to the journal. -/
def journal : HostBody := fun args => do
  let line ← joined args
  modify fun w => { w with journal := w.journal.push line }
  pure (.null, args)

/-- Yields what kinds of value the arguments are. -/
def kinds : HostBody := fun args => do
  let h ← Host.heap
  pure (.text ("|".intercalate (args.map (kindText h))), args)

/-- The length of an array, or -1 for what is none. -/
def lengthOf (h : Heap) : Value → Int
  | .array a => h.itemCount a
  | _ => -1

/-- Moves an enumerator on: its field `pos` counts the items of its field `items`. -/
def moveNext : HostBody := fun args => do
  let this ← argument args 0
  let p := wrap (lowInt (← getNamed this "pos") + 1)
  let n := lengthOf (← Host.heap) (← getNamed this "items")
  let this ← setNamed this "pos" (.ofInt32 p)
  pure (.ofBool (p ≤ n), withReceiver args this)

/-- Yields the item an enumerator is at. -/
def current : HostBody := fun args => do
  let this ← argument args 0
  match ← getNamed this "items" with
  | .array a =>
    let p := lowInt (← getNamed this "pos")
    return (← Host.ofExcept ((← Host.heap).getItem a (p - 1)), args)
  | _ => Host.fail .nullReference

/-- Yields the integer that a string denotes. -/
def parseInt : HostBody := fun args => do
  let v ← argument args 0
  let n ← Host.expect "an integer literal" v (v.text?.bind parseInt?)
  pure (.ofInt32 n, args)

/-- Appends an element with a tag and a content to the field `out` of the receiver. -/
def appendElement : HostBody := fun args => do
  let this ← argument args 0
  let out ← Host.display (← getNamed this "out")
  let tag ← Host.display (← argument args 1)
  let content ← Host.display (← argument args 2)
  let this ← setNamed this "out"
    (.text (out ++ "<" ++ tag ++ ">" ++ content ++ "</" ++ tag ++ ">"))
  pure (.null, withReceiver args this)

/-- Calls a finished procedure with all arguments. -/
def run (p : Procedure) (fuel : Nat) : HostBody := fun args =>
  return (← p.call fuel args, args)

end Stock

end Stackwright
