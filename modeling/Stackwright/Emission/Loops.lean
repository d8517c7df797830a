import Stackwright.Emission.Branches

/-! # Loops and switches

Emission calls for the structured constructs that repeat or select: **counted loops**, loops over an
**enumerator**, **while** loops, breaks and **switches**. -/

namespace Stackwright

namespace Emit

/-! ## Counted loops -/

/-- A new loop. -/
def newLoop (slot : Option Local) (bound : Operand) : Emit LoopState := do
  let s ← get
  modify fun s => { s with nextLoop := s.nextLoop + 1 }
  let body ← newLabel
  let test ← newLabel
  pure ⟨⟨s.labels.session, s.nextLoop⟩, slot, body, test, none, bound⟩

/-- Opens a **counted loop** from a start up to, but not including, a bound. A bound of an array type
stands for its length. Without an index the loop has no test and no end of its own. -/
def openFor (index : Option Local) (start bound : Operand) : Emit LoopHandle := do
  let loop ← newLoop index bound
  match index with
  | some l =>
    load start
    storeLocal l
    jumpTo loop.test
  | none => pure ()
  markHere loop.body
  openConstruct (.counted loop)
  pure loop.handle

/-- Marks the label behind a loop, if something breaks out of it. -/
def markExit (loop : LoopState) : Emit Unit :=
  match loop.exit with
  | some l => markHere l
  | none => pure ()

/-- Ends a counted loop: counts up, tests, and goes back. -/
def closeFor : Emit Unit := do
  let loop ← takeCounted
  match loop.slot with
  | some l =>
    loadLocal l
    loadInt 1
    traced "Add" .add
    storeLocal l
    markHere loop.test
    loadLocal l
    load loop.bound
    if loop.bound.type.isArray then loadLength
    jumpIfLess loop.body
  | none => jumpTo loop.body
  markExit loop

/-! ## Loops over an enumerator -/

/-- Opens a **loop over an enumerator**: each round stores the current item, converted, into a local. -/
def openEach (l : Local) (element : Ty) (enumerator : Local) (getCurrent : Method) :
    Emit LoopHandle := do
  let loop ← newLoop (some l) (.variable enumerator)
  jumpTo loop.test
  markHere loop.body
  callWith (some loop.bound) getCurrent []
  convertTop element l.type
  storeLocal l
  openConstruct (.enumerated loop)
  pure loop.handle

/-- Ends a loop over an enumerator: moves on, and goes back while there are items. -/
def closeEach (moveNext : Method) : Emit Unit := do
  let loop ← takeEnumerated
  markHere loop.test
  callWith (some loop.bound) moveNext []
  jumpIfTrue loop.body
  markExit loop

/-! ## Breaks -/

/-- The label behind an open loop. It is defined by the first break. -/
def exitOf (h : LoopHandle) : Emit Label := do
  let constructs := (← get).constructs
  match Construct.findLoop? constructs h with
  | none => refuseInnermost .counted constructs.head?
  | some loop =>
    match loop.exit with
    | some l => pure l
    | none =>
      let l ← newLabel
      modify fun s => { s with constructs := Construct.setExit h l s.constructs }
      pure l

/-- Leaves a loop. -/
def leave (h : LoopHandle) : Emit Unit := do
  let l ← exitOf h
  note ("br " ++ l.text)
  jump (.always l)

/-- Leaves a loop if the condition on the stack is true. -/
def leaveIfTrue (h : LoopHandle) : Emit Unit := do
  let l ← exitOf h
  note ("brtrue " ++ l.text)
  jump (.ifTrue l)

/-- Leaves a loop if the condition on the stack is false. -/
def leaveIfFalse (h : LoopHandle) : Emit Unit := do
  let l ← exitOf h
  note ("brfalse " ++ l.text)
  jump (.ifFalse l)

/-! ## While loops -/

/-- Opens a **while loop** with its condition. -/
def openWhile : Emit Unit := do
  let head ← newLabel
  markHere head
  openConstruct (.whileLoop head)

/-- Begins the body of a while loop, which runs as long as a comparison of the two operands that the
condition leaves on the stack holds. -/
def openWhileBody (c : Comparison) : Emit Unit := do
  let head ← takeWhileHead
  openIf c
  openConstruct (.whileLoop head)

/-- Ends a while loop. -/
def closeWhile : Emit Unit := do
  let head ← takeWhileHead
  jumpTo head
  closeIf

/-! ## Switches -/

/-- New labels. -/
def newLabels : Nat → Emit (List Label)
  | 0 => pure []
  | n + 1 => do
    let l ← newLabel
    return l :: (← newLabels n)

/-- Writes the transcript lines of several labels. -/
def noteLabels : List Label → Emit Unit
  | [] => pure ()
  | l :: rest => do
    note ("    " ++ l.text)
    noteLabels rest

/-- Opens a **switch** on the index on the stack; answers the labels of its cases. -/
def openSwitch (cases : Nat) : Emit (List Label) := do
  let default ← newLabel
  let finish ← newLabel
  let labels ← newLabels cases
  note "switch ("
  noteLabels labels
  note ") \x7b"
  jump (.switch labels)
  jumpTo default
  openConstruct (.switch default finish false)
  pure labels

/-- Begins the section of a case. -/
def openCase (l : Label) (name : String) : Emit Unit := do
  note ("case " ++ name ++ "\x7b")
  markHere l

/-- Ends the section of a case. -/
def closeCase : Emit Unit := do
  let (_, finish, _) ← currentSwitch
  jumpTo finish
  note "\x7d //end case "

/-- Begins the default section. -/
def openDefault : Emit Unit := do
  let (default, finish, _) ← currentSwitch
  modify fun s => { s with constructs := .switch default finish true :: s.constructs.drop 1 }
  markHere default

/-- Ends a switch. -/
def closeSwitch : Emit Unit := do
  let (default, finish, hasDefault) ← takeSwitch
  note "\x7d //end switch"
  if hasDefault then pure () else markHere default
  markHere finish

end Emit

end Stackwright
