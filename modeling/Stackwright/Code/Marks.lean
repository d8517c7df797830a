import Stackwright.BuildError

/-! # Marks

What a session knows about its labels: where each was **marked**, and whether anything jumps to it. A
label of another session is never accepted. -/

namespace Stackwright

/-- What a session knows about one of its labels. -/
structure Mark where
  /-- The position the label was marked at. -/
  position : Option Nat := none
  /-- Whether an instruction jumps to it. -/
  targeted : Bool := false
  deriving DecidableEq

/-- The **marks of a session**. -/
structure Marks where
  /-- The session. -/
  session : Nat
  /-- One mark for each label, by the number of the label. -/
  entries : Array Mark := #[]

namespace Marks

/-- The label that is defined next. -/
def next (t : Marks) : Label := ⟨t.session, t.entries.size⟩

/-- Defines the next label. -/
def define (t : Marks) : Marks := { t with entries := t.entries.push {} }

/-- The mark of a label that the session defined. -/
def entry (t : Marks) (l : Label) : Except BuildError Mark :=
  match l.session == t.session, t.entries[l.id]? with
  | true, some e => .ok e
  | _, _ => .error (.unknownLabel l)

/-- Checks that the session defined each of several labels. -/
def checkKnown (t : Marks) (ls : List Label) : Except BuildError Unit :=
  ls.forM fun l => discard (t.entry l)

/-- Checks that a label may be marked: the session defined it and did not mark it before. -/
def checkUnmarked (t : Marks) (l : Label) : Except BuildError Unit := do
  match (← t.entry l).position with
  | some _ => .error (.labelAlreadyMarked l)
  | none => .ok ()

/-- The marks with that of a label changed. -/
def change (t : Marks) (l : Label) (f : Mark → Mark) : Marks :=
  { t with entries := t.entries.modify l.id f }

/-- Marks a label at a position. -/
def mark (t : Marks) (l : Label) (position : Nat) : Marks :=
  t.change l fun e => { e with position := some position }

/-- Notes that an instruction jumps to each of several labels. -/
def target (t : Marks) (ls : List Label) : Marks :=
  ls.foldl (fun t l => t.change l fun e => { e with targeted := true }) t

/-- Checks that every label that something jumps to was marked; else the lowest one that was not is
the error. -/
def check (t : Marks) : Except BuildError Unit :=
  match t.entries.findIdx? fun e => e.targeted && e.position.isNone with
  | some i => .error (.labelNotMarked ⟨t.session, i⟩)
  | none => .ok ()

/-- The position of a label. -/
def position (t : Marks) (l : Label) : Except BuildError Nat := do
  match (← t.entry l).position with
  | some p => .ok p
  | none => .error (.labelNotMarked l)

end Marks

end Stackwright
