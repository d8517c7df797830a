import Stackwright.Builtin
import Stackwright.Code.Instruction
import Stackwright.Emission.Construct

/-! # Sessions

A **session** builds one procedure: it records instructions, locals, labels and open constructs, and
keeps the notices that building makes known. An emission call is an `Emit` computation, which may be
refused with a build error. It runs under a **tracer**: how much is traced, and what is emitted to
show the value on top of the stack. -/

namespace Stackwright

/-- A **session**. -/
structure Session where
  /-- The name of the procedure. -/
  name : String
  /-- Its argument and return types. -/
  signature : Signature
  /-- Where traces go. -/
  sink : Sink
  /-- The locals declared so far: types and names. -/
  locals : Array (Ty × String) := #[]
  /-- The open constructs, innermost first. -/
  constructs : List Construct := []
  /-- The labels. -/
  labels : Marks
  /-- The instructions recorded so far. -/
  code : Array (Instruction Label) := #[]
  /-- The label at the end of the procedure. -/
  finish : Label
  /-- The number of the next transcript line. -/
  nextLine : Nat := 1
  /-- The local that holds the operands of formatted text, once there is one. -/
  formatArray : Option Local := none
  /-- The number of the next loop. -/
  nextLoop : Nat := 0
  /-- What building made known. -/
  notices : Array Notice := #[]

/-- How emission is **traced**. -/
structure Tracer where
  /-- How much is traced. -/
  level : TraceDetail
  /-- What is emitted to show a value of a type on top of the stack. -/
  probe : Ty → EStateM BuildError Session Unit

/-- The tracer that traces nothing. -/
def Tracer.silent : Tracer := ⟨.off, fun _ => pure ()⟩

/-- An **emission call**. -/
abbrev Emit := ReaderT Tracer (EStateM BuildError Session)

namespace Emit

/-- Refuses the call. -/
def refuse {α : Type} (e : BuildError) : Emit α := throw e

/-- The value, or the error, of an outcome. -/
def ofExcept {α : Type} : Except BuildError α → Emit α
  | .ok a => pure a
  | .error e => refuse e

/-! ## Recording -/

/-- Records an instruction. -/
def record (i : Instruction Label) : Emit Unit :=
  modify fun s => { s with code := s.code.push i }

/-- Records an operation. -/
def op (o : Op) : Emit Unit := record (.op o)

/-- Records jumps to labels of the session. -/
def jump (j : Jump Label) : Emit Unit := do
  ofExcept ((← get).labels.checkKnown j.targets)
  modify fun s => { s with labels := s.labels.target j.targets }
  record (.jump j)

/-! ## Tracing -/

/-- Makes something known. -/
def notify (n : Notice) : Emit Unit := modify fun s => { s with notices := s.notices.push n }

/-- Writes a transcript line while tracing. When tracing in full, the procedure also reports the line
whenever it gets there. -/
def line (text : String) : Emit Unit := do
  match (← read).level with
  | .off => pure ()
  | level =>
    let number := (← get).nextLine
    notify (.line number text)
    modify fun s => { s with nextLine := number + 1 }
    -- the report goes before the instruction that the line announces
    if level = .full then
      op (.push (.text (numberedLine number text)))
      op (.call (Builtin.report (← get).sink))

/-- Writes the transcript line of an instruction. -/
def note (text : String) : Emit Unit := line ("    " ++ text)

/-- Emits what shows the value of a type on top of the stack. -/
def probe (t : Ty) : Emit Unit := do (← read).probe t

/-- Records an operation behind its transcript line. -/
def traced (text : String) (o : Op) : Emit Unit := do
  note text
  op o

/-! ## Labels -/

/-- Defines a label. -/
def newLabel : Emit Label :=
  modifyGet fun s => (s.labels.next, { s with labels := s.labels.define })

/-- Marks a label at the current position. -/
def markHere (l : Label) : Emit Unit := do
  ofExcept ((← get).labels.checkUnmarked l)
  modify fun s => { s with labels := s.labels.mark l s.code.size }
  line (l.text ++ ":")

/-! ## Constructs -/

/-- Opens a construct. -/
def openConstruct (c : Construct) : Emit Unit :=
  modify fun s => { s with constructs := c :: s.constructs }

/-- Takes the innermost construct, whatever it is. -/
def takeInnermost : Emit (Option Construct) := do
  let constructs := (← get).constructs
  modify fun s => { s with constructs := s.constructs.drop 1 }
  pure constructs.head?

/-- Refuses a call because the innermost construct is of another kind. -/
def refuseInnermost {α : Type} (expected : ConstructKind) (found : Option Construct) : Emit α :=
  refuse (.structuralMismatch expected (found.map Construct.kind))

/-- Takes the innermost construct, a conditional. -/
def takeConditional : Emit (Label × Label) := do
  match ← takeInnermost with
  | some (.conditional otherwise finish) => pure (otherwise, finish)
  | found => refuseInnermost .conditional found

/-- Takes the innermost construct, a counted loop. -/
def takeCounted : Emit LoopState := do
  match ← takeInnermost with
  | some (.counted loop) => pure loop
  | found => refuseInnermost .counted found

/-- Takes the innermost construct, a loop over an enumerator. -/
def takeEnumerated : Emit LoopState := do
  match ← takeInnermost with
  | some (.enumerated loop) => pure loop
  | found => refuseInnermost .enumerated found

/-- Takes the innermost construct, a switch. -/
def takeSwitch : Emit (Label × Label × Bool) := do
  match ← takeInnermost with
  | some (.switch default finish hasDefault) => pure (default, finish, hasDefault)
  | found => refuseInnermost .switch found

/-- Takes the innermost construct, a while loop; answers its head. -/
def takeWhileHead : Emit Label := do
  match ← takeInnermost with
  | some (.whileLoop head) => pure head
  | found => refuseInnermost .whileLoop found

/-- The innermost construct, which must be a switch and stays open. -/
def currentSwitch : Emit (Label × Label × Bool) := do
  match (← get).constructs with
  | .switch default finish hasDefault :: _ => pure (default, finish, hasDefault)
  | constructs => refuseInnermost .switch constructs.head?

end Emit

end Stackwright
