import Stackwright.BuildError
import Stackwright.Emission.Slot

/-! # Constructs

The structured constructs of a session that are **open**, innermost first. Each remembers the labels
that the calls which close it will need. -/

namespace Stackwright

/-- A **loop** of a session, as something to break out of. -/
structure LoopHandle where
  /-- The session the loop belongs to. -/
  session : Nat
  /-- The number of the loop in its session. -/
  id : Nat
  deriving DecidableEq

/-- What an open loop remembers. -/
structure LoopState where
  /-- The handle of the loop. -/
  handle : LoopHandle
  /-- The local that is set in each round, if there is one. -/
  slot : Option Local
  /-- The start of the body. -/
  body : Label
  /-- The test before the next round. -/
  test : Label
  /-- The label behind the loop, once something breaks out of it. -/
  exit : Option Label
  /-- What the loop runs up to, or over. -/
  bound : Operand

/-- An **open** construct. -/
inductive Construct
  /-- A conditional: where to go if the current guard fails, and its end. After the last alternative the
  two are the same label. -/
  | conditional (otherwise finish : Label)
  /-- A loop over a range of integers. -/
  | counted (loop : LoopState)
  /-- A loop over an enumerator. -/
  | enumerated (loop : LoopState)
  /-- A switch: the default section, the end, and whether the default section was given. -/
  | switch (default finish : Label) (hasDefault : Bool)
  /-- A while loop by its head. -/
  | whileLoop (head : Label)

namespace Construct

/-- The kind of a construct. -/
def kind : Construct → ConstructKind
  | .conditional .. => .conditional
  | .counted _ => .counted
  | .enumerated _ => .enumerated
  | .switch .. => .switch
  | .whileLoop _ => .whileLoop

/-- The loop that a construct is, if it can be broken out of by a handle. -/
def loop? : Construct → Option LoopState
  | .counted s | .enumerated s => some s
  | .conditional .. | .switch .. | .whileLoop _ => none

/-- Whether a construct is the loop of a handle. -/
def isLoop (b : Construct) (h : LoopHandle) : Bool :=
  match b.loop? with
  | some s => s.handle == h
  | none => false

/-- A loop with the label behind it. -/
def withExit (l : Label) : Construct → Construct
  | .counted s => .counted { s with exit := some l }
  | .enumerated s => .enumerated { s with exit := some l }
  | b => b

/-- The innermost open loop of a handle. -/
def findLoop? (constructs : List Construct) (h : LoopHandle) : Option LoopState :=
  (constructs.find? (·.isLoop h)).bind loop?

/-- The constructs with a label behind the innermost loop of a handle. -/
def setExit (h : LoopHandle) (l : Label) : List Construct → List Construct
  | [] => []
  | b :: rest => if b.isLoop h then b.withExit l :: rest else b :: setExit h l rest

end Construct

end Stackwright
