import Stackwright.World

/-! # Frames

A running procedure has a **frame**: its arguments, its locals and its evaluation stack. An `Exec`
computation reads and changes a frame together with the world; what it changed before it halts stays
changed. -/

namespace Stackwright

/-- The **frame** of a running procedure. -/
structure Frame where
  /-- The arguments. -/
  args : Array Value
  /-- The locals. -/
  locals : Array Value
  /-- The evaluation stack, its top first. -/
  stack : List Value

/-- A frame and the world it runs in. -/
structure Machine where
  /-- The frame of the running procedure. -/
  frame : Frame
  /-- The world. -/
  world : World

/-- A computation on a frame. -/
abbrev Exec := EStateM Halt Machine

namespace Exec

/-- Runs a computation of the world. -/
def lift {α : Type} (c : Host α) : Exec α := fun m =>
  match c.run m.world with
  | .ok a w => .ok a { m with world := w }
  | .error e w => .error e { m with world := w }

instance : MonadLift Host Exec := ⟨lift⟩

/-- Stops with a fault. -/
def fail {α : Type} (f : Fault) : Exec α := throw (.fault f)

/-! ## The evaluation stack -/

/-- Goes on with another stack. -/
def setStack (stack : List Value) : Exec Unit :=
  modify fun m => { m with frame := { m.frame with stack } }

/-- Pushes a value. -/
def push (v : Value) : Exec Unit :=
  modify fun m => { m with frame := { m.frame with stack := v :: m.frame.stack } }

/-- Pops the top. -/
def pop : Exec Value := do
  match (← get).frame.stack with
  | [] => fail .stackUnderflow
  | v :: rest =>
    setStack rest
    pure v

/-- Pops several values at once, the lowest first. With too few of them nothing is popped. -/
def popMany (n : Nat) : Exec (List Value) := do
  let stack := (← get).frame.stack
  let popped := stack.take n
  if popped.length < n then fail .stackUnderflow
  else
    setStack (stack.drop n)
    pure popped.reverse

/-- The top, which stays. -/
def top : Exec Value := do
  match (← get).frame.stack with
  | [] => fail .stackUnderflow
  | v :: _ => pure v

/-! ## Slots -/

/-- A slot of some array of slots. -/
def slotAt (slots : Array Value) (i : Nat) : Exec Value :=
  match slots[i]? with
  | some v => pure v
  | none => fail (.outside i slots.size)

/-- Refuses a position that no slot has. -/
def checkSlot (slots : Array Value) (i : Nat) : Exec Unit :=
  if i < slots.size then pure () else fail (.outside i slots.size)

/-- An argument. -/
def getArg (i : Nat) : Exec Value := do slotAt (← get).frame.args i

/-- A local. -/
def getLocal (i : Nat) : Exec Value := do slotAt (← get).frame.locals i

/-- Stores into an argument. -/
def setArg (i : Nat) (v : Value) : Exec Unit := do
  checkSlot (← get).frame.args i
  modify fun m => { m with frame := { m.frame with args := m.frame.args.setIfInBounds i v } }

/-- Stores into a local. -/
def setLocal (i : Nat) (v : Value) : Exec Unit := do
  checkSlot (← get).frame.locals i
  modify fun m => { m with frame := { m.frame with locals := m.frame.locals.setIfInBounds i v } }

/-! ## Locations -/

/-- The value at a location. -/
def load : Location → Exec Value
  | .argument i => getArg i
  | .variable i => getLocal i
  | .element a i => do Host.ofExcept ((← Host.heap).getItem a (indexOf i))
  | .boxed b => return (← Host.heap).getBox b

/-- Stores a value at a location. -/
def store (p : Location) (v : Value) : Exec Unit :=
  match p with
  | .argument i => setArg i v
  | .variable i => setLocal i v
  | .element a i => Host.setItem a (indexOf i) v
  | .boxed b => Host.modifyHeap (·.setBox b v)

/-- A value, read through if it is an address. -/
def readThrough : Value → Exec Value
  | .address p => load p
  | v => pure v

end Exec

end Stackwright
