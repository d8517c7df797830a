import Stackwright.Emission.Arrays

/-! # Branches and conditionals

Emission calls that jump, and the **conditionals** built from them. A conditional skips its body by a
jump on the negation of its guard. Its end label is shared by all alternatives; the label of the next
alternative is marked when that one is opened, or else at the end. -/

namespace Stackwright

namespace Emit

/-! ## Jumps -/

/-- Returns from the procedure. -/
def ret : Emit Unit := do
  note "Ret"
  record .ret

/-- Jumps to a label. -/
def jumpTo (l : Label) : Emit Unit := do
  note ("Br " ++ l.text)
  jump (.always l)

/-- Jumps to a label if the condition on the stack is true. -/
def jumpIfTrue (l : Label) : Emit Unit := do
  note ("Brtrue " ++ l.text)
  jump (.ifTrue l)

/-- Jumps to a label if the condition on the stack is false. -/
def jumpIfFalse (l : Label) : Emit Unit := do
  note ("Brfalse " ++ l.text)
  jump (.ifFalse l)

/-- Jumps to a label if the lower operand is less than the upper one. -/
def jumpIfLess (l : Label) : Emit Unit := do
  note ("Blt " ++ l.text)
  jump (.compare .lessThan l)

/-- Jumps to a label if the lower operand is greater than the upper one. -/
def jumpIfGreater (l : Label) : Emit Unit := do
  note ("Bgt " ++ l.text)
  jump (.compare .greaterThan l)

/-- Jumps to a label unless the lower operand is greater than the upper one. -/
def jumpIfLessOrEqual (l : Label) : Emit Unit := do
  note ("Ble " ++ l.text)
  jump (.compare .lessThanOrEqualTo l)

/-- Jumps to a new label **unless** a comparison of two operands holds. -/
def jumpUnless (c : Comparison) : Emit Label := do
  let l ← newLabel
  note ("Branch if " ++ c.negated.name ++ " to " ++ l.text)
  jump (.compare c.negated l)
  pure l

/-! ## Opening a conditional -/

/-- Opens a conditional whose body runs if the condition on the stack is true. -/
def openIfTrue : Emit Unit := do
  let finish ← newLabel
  let otherwise ← newLabel
  jumpIfFalse otherwise
  openConstruct (.conditional otherwise finish)

/-- Opens a conditional whose body runs if the condition on the stack is false. -/
def openIfFalse : Emit Unit := do
  let finish ← newLabel
  let otherwise ← newLabel
  jumpIfTrue otherwise
  openConstruct (.conditional otherwise finish)

/-- Opens a conditional whose body runs if a comparison of the two operands on the stack holds. -/
def openIf (c : Comparison) : Emit Unit := do
  let finish ← newLabel
  let otherwise ← jumpUnless c
  openConstruct (.conditional otherwise finish)

/-- Opens a conditional whose body runs if a comparison of two operands holds. -/
def openIfCompared (a : Operand) (c : Comparison) (b : Operand) : Emit Unit := do
  load a
  load b
  openIf c

/-- Opens a conditional whose body runs if an operand is not the zero of its type. Structs are compared
in boxes. -/
def openIfNotZero (o : Operand) : Emit Unit := do
  let t := o.type
  if t.isStruct then
    loadZero t
    convertTop t .object
    load o
    convertTop t .object
    call Builtin.equals
    openIfFalse
  else
    loadZero t
    load o
    openIf .notEqualTo

/-- Loads the length of a string local, and zero. -/
def loadTextLength (l : Local) : Emit Unit := do
  loadLocal l
  call Builtin.textLength
  loadInt 0

/-- Opens a conditional whose body runs if a string local is not empty. -/
def openIfNotEmpty (l : Local) : Emit Unit := do
  loadTextLength l
  openIf .notEqualTo

/-! ## Alternatives -/

/-- Ends an alternative and starts the next one; answers the end label of the conditional. -/
def nextAlternative : Emit Label := do
  let (otherwise, finish) ← takeConditional
  jumpTo finish
  markHere otherwise
  pure finish

/-- Opens the last alternative. -/
def openElse : Emit Unit := do
  let finish ← nextAlternative
  openConstruct (.conditional finish finish)

/-- Opens an alternative that runs if a comparison of two operands holds. -/
def openElseIf (a : Operand) (c : Comparison) (b : Operand) : Emit Unit := do
  let finish ← nextAlternative
  load a
  load b
  let otherwise ← jumpUnless c
  openConstruct (.conditional otherwise finish)

/-- Opens an alternative that runs if a string local is empty. -/
def openElseIfEmpty (l : Local) : Emit Unit := do
  let finish ← nextAlternative
  loadTextLength l
  let otherwise ← jumpUnless .equalTo
  openConstruct (.conditional otherwise finish)

/-- Ends a conditional. -/
def closeIf : Emit Unit := do
  let (otherwise, finish) ← takeConditional
  if otherwise = finish then pure () else markHere otherwise
  markHere finish

end Emit

end Stackwright
