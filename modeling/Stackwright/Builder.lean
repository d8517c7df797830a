import Stackwright.Emission.Operation
import Stackwright.Machine.Run

/-! # Builders

A **builder** takes emission calls for one procedure. The first call that is refused aborts it; a
finished builder takes no more calls. What a call makes known comes back as notices, in order, for the
sink of the builder. -/

namespace Stackwright

/-! ## The ends of a session -/

namespace Session

/-- A session as it is before its first line: the label at the end is already defined. -/
def fresh (number : Nat) (name : String) (signature : Signature) (sink : Sink) : Session :=
  let labels : Marks := { session := number }
  { name, signature, sink, labels := labels.define, finish := labels.next }

end Session

namespace Emit

/-- Begins the procedure. -/
def begin : Emit Unit := do
  let name := (← get).name
  notify (.message .debug
    ("begin procedure `" ++ name ++ "` (trace: " ++ (← read).level.name ++ ")"))
  line ("Begin method " ++ name ++ " \x7b")

/-- The code with its labels replaced by positions. -/
def link : Emit (Array (Instruction Nat)) := do
  let s ← get
  ofExcept (s.code.mapM (Instruction.link s.labels))

/-- Ends the procedure: no construct may be open, every label that is jumped to must be marked, and a
final return is added. -/
def finish : Emit Procedure := do
  let s ← get
  match s.constructs with
  | [] => pure ()
  | b :: _ => refuse (.unclosedBlock s.constructs.length b.kind)
  markHere s.finish
  line "\x7d End method"
  ret
  ofExcept (← get).labels.check
  let code ← link
  let locals := (← get).locals.toList.map (·.1)
  notify (.message .debug
    ("end procedure `" ++ s.name ++ "`: " ++ toString code.size ++ " steps, " ++
      toString locals.length ++ " locals"))
  pure ⟨s.name, s.signature, locals, code⟩

end Emit

/-! ## Builders -/

/-- The **state** of a builder. -/
inductive BuilderState
  /-- Taking calls. -/
  | building (session : Session)
  /-- A call was refused. -/
  | aborted
  /-- The procedure is built. -/
  | finalized

/-- The name of a state. -/
def BuilderState.name : BuilderState → String
  | .building _ => "Building"
  | .aborted => "Aborted"
  | .finalized => "Finalized"

/-- A **builder**. -/
structure Builder where
  /-- Where traces go. -/
  sink : Sink
  /-- How much is traced. -/
  level : TraceDetail
  /-- The state. -/
  state : BuilderState

/-- What a call to a builder **comes to**. -/
structure Outcome (α : Type) where
  /-- The answer, or why the call was refused. -/
  result : Except BuildError α
  /-- The builder after the call. -/
  builder : Builder
  /-- What the call made known. -/
  notices : Array Notice

namespace Builder

/-- Makes an emission call. A call that is accepted hands over the notices that its session kept; one
that is refused aborts the builder. -/
def submit {α : Type} (call : Emit α) : Builder → Outcome α
  | ⟨sink, level, .building s⟩ =>
    match (call.run (.ofLevel level)).run s with
    | .ok a s =>
      let notices := s.notices
      ⟨.ok a, ⟨sink, level, .building { s with notices := #[] }⟩, notices⟩
    | .error e s =>
      ⟨.error e, ⟨sink, level, .aborted⟩,
        s.notices.push (.message .warn ("aborting procedure `" ++ s.name ++ "`: " ++ e.message))⟩
  | ⟨sink, level, .aborted⟩ => ⟨.error .sessionAborted, ⟨sink, level, .aborted⟩, #[]⟩
  | ⟨sink, level, .finalized⟩ => ⟨.error .useAfterFinalize, ⟨sink, level, .finalized⟩, #[]⟩

/-- A new builder for a procedure, by the number of its session. -/
def begin (number : Nat) (name : String) (signature : Signature) (sink : Sink)
    (level : TraceDetail) : Outcome Unit :=
  submit Emit.begin ⟨sink, level, .building (.fresh number name signature sink)⟩

/-- Performs an operation. -/
def perform (b : Builder) (o : Operation) : Outcome Answer := b.submit o.perform

/-- Finishes the procedure. -/
def finish (b : Builder) : Outcome Procedure :=
  let r := b.submit Emit.finish
  match r.result with
  | .ok _ => { r with builder := { r.builder with state := .finalized } }
  | .error _ => r

/-- The session of a builder that still takes calls. -/
def session (b : Builder) : Except BuildError Session :=
  match b.state with
  | .building s => .ok s
  | .aborted => .error .sessionAborted
  | .finalized => .error .useAfterFinalize

/-- The name of the procedure being built. -/
def procedureName (b : Builder) : Except BuildError String := Session.name <$> b.session

/-- The signature of the procedure being built. -/
def signature (b : Builder) : Except BuildError Signature := Session.signature <$> b.session

/-- The text of a builder in diagnostics. -/
def debug (b : Builder) : String :=
  "ProcedureBuilder \x7b state: " ++ b.state.name ++
    (match b.state with
      | .building s => ", name: " ++ Quoted.encode s.name
      | .aborted | .finalized => "") ++ " \x7d"

end Builder

/-- The text of the options of a trace level in diagnostics. -/
def TraceDetail.optionsDebug (t : TraceDetail) : String :=
  "EmitOptions \x7b trace: " ++ t.debug ++ ", .. \x7d"

end Stackwright
