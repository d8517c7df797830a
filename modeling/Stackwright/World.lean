import Stackwright.Transcript
import Stackwright.Value.Text

/-! # The world

The **world** is everything procedures and their host bodies share: the heap, the trace memories, the
log, and a journal that host bodies may write to. A `Host` computation reads and changes the world; what
it changed before it halts stays changed. -/

namespace Stackwright

/-- The lines a trace memory holds. -/
structure TraceMemory where
  /-- The transcript: numbered lines in the order they were emitted. -/
  lines : Array (Nat × String) := #[]
  /-- What running procedures reported. -/
  reports : Array String := #[]

/-- The **world**. -/
structure World where
  /-- The heap. -/
  heap : Heap := {}
  /-- The trace memories. -/
  memories : Array TraceMemory := #[]
  /-- The most verbose record the log keeps. -/
  logLevel : LogLevel := .off
  /-- The log. -/
  logs : Array LogRecord := #[]
  /-- What host bodies wrote down. -/
  journal : Array String := #[]
  /-- The number of the next session to begin. -/
  nextSession : Nat := 1

namespace World

/-- The world with one more log record, if the log keeps it. -/
def record (w : World) (r : LogRecord) : World :=
  if w.logLevel.keeps r.level then { w with logs := w.logs.push r } else w

/-- A new trace memory. -/
def newMemory (w : World) : Sink × World :=
  (.memory w.memories.size, { w with memories := w.memories.push {} })

/-- The world after a transcript line reached a sink. -/
def writeLine (w : World) (sink : Sink) (number : Nat) (text : String) : World :=
  match sink with
  | .log => w.record ⟨.debug, .traces, numberedLine number text⟩
  | .memory i =>
    { w with memories := w.memories.modify i fun m => { m with lines := m.lines.push (number, text) } }

/-- The world after a running procedure reported a line to a sink. -/
def report (w : World) (sink : Sink) (text : String) : World :=
  match sink with
  | .log => w.record ⟨.trace, .traces, text⟩
  | .memory i =>
    { w with memories := w.memories.modify i fun m => { m with reports := m.reports.push text } }

/-- The world after a notice was delivered. -/
def deliver (w : World) (sink : Sink) : Notice → World
  | .line number text => w.writeLine sink number text
  | .message level text => w.record ⟨level, .general, text⟩

/-- The world after several notices were delivered in order. -/
def deliverAll (w : World) (sink : Sink) (notices : Array Notice) : World :=
  notices.foldl (fun w n => w.deliver sink n) w

/-- What a trace memory holds; the log holds no lines. -/
def memory (w : World) : Sink → TraceMemory
  | .log => {}
  | .memory i => w.memories.getD i {}

/-- The log, emptied. -/
def drainLogs (w : World) : Array LogRecord × World := (w.logs, { w with logs := #[] })

/-- The journal, emptied. -/
def drainJournal (w : World) : Array String × World := (w.journal, { w with journal := #[] })

end World

/-- Why a computation **stops** without a value: a fault, or no fuel left to go on. -/
inductive Halt
  | fault (cause : Fault)
  | outOfFuel

/-- A computation in the world. -/
abbrev Host := EStateM Halt World

namespace Host

/-- Stops with a fault. -/
def fail {α : Type} (f : Fault) : Host α := throw (.fault f)

/-- The value, or the fault, of an outcome. -/
def ofExcept {α : Type} : Except Fault α → Host α
  | .ok a => pure a
  | .error f => fail f

/-- The current heap. -/
def heap : Host Heap := return (← get).heap

/-- Changes the heap. The old heap is given up, so that a cell is changed in place. -/
def modifyHeap (change : Heap → Heap) : Host Unit :=
  modify fun w => { w with heap := change w.heap }

/-- Makes a new cell in the heap. -/
def allocate {α : Type} (make : Heap → α × Heap) : Host α :=
  modifyGet fun w =>
    let (a, heap) := make w.heap
    (a, { w with heap })

/-- Stores an item of an array. -/
def setItem (a : ArrayId) (i : Int) (v : Value) : Host Unit := do
  ofExcept ((← heap).checkItem a i)
  modifyHeap (·.setItem a i v)

/-- Stores a field of an object. -/
def setField (o : ObjectId) (slot : Nat) (v : Value) : Host Unit := do
  ofExcept ((← heap).checkField o slot)
  modifyHeap (·.setField o slot v)

/-- Stops because a value is not what is expected. -/
def unexpected {α : Type} (expected : String) (v : Value) : Host α := do
  fail (.typeMismatch expected ((← heap).debug v))

/-- The result of a reading of a value; where there is none, something else was expected. -/
def expect {α : Type} (expected : String) (v : Value) : Option α → Host α
  | some a => pure a
  | none => unexpected expected v

/-- The text of a value for users. -/
def display (v : Value) : Host String := return (← heap).display v

end Host

end Stackwright
