import Stackwright.Proofs.Emission.Moves

/-! # Transcript lines

What a transcript line does to a session, at every level: it is always accepted, and it adds to the code
at most the report of the line, which are operations. So it moves no label and closes no construct.

* **`Tracer.report t s text`** — the operations that report a line.
* **`Session.written s t text`** — the session behind a line. -/

namespace Stackwright

namespace Session

/-- The session with operations recorded. -/
def recorded (s : Session) (ops : List Op) : Session :=
  { s with code := s.code ++ (ops.map Instruction.op).toArray }

end Session

/-- What **reports** a line: nothing, unless everything is traced. -/
def Tracer.report (t : Tracer) (s : Session) (text : String) : List Op :=
  if t.level = .full then
    [.push (.text (numberedLine s.nextLine text)), .call (Builtin.report s.sink)]
  else []

/-- The session **behind a line**. -/
def Session.written (s : Session) (t : Tracer) (text : String) : Session :=
  if t.level = .off then s
  else
    { s.recorded (t.report s text) with
      nextLine := s.nextLine + 1, notices := s.notices.push (.line s.nextLine text) }

namespace Session

variable (s : Session) (t : Tracer) (text : String)

@[simp] theorem labels_written : (s.written t text).labels = s.labels := by
  unfold written
  split <;> rfl

@[simp] theorem constructs_written : (s.written t text).constructs = s.constructs := by
  unfold written
  split <;> rfl

@[simp] theorem finish_written : (s.written t text).finish = s.finish := by
  unfold written
  split <;> rfl

@[simp] theorem name_written : (s.written t text).name = s.name := by
  unfold written
  split <;> rfl

@[simp] theorem signature_written : (s.written t text).signature = s.signature := by
  unfold written
  split <;> rfl

@[simp] theorem sink_written : (s.written t text).sink = s.sink := by
  unfold written
  split <;> rfl

@[simp] theorem locals_written : (s.written t text).locals = s.locals := by
  unfold written
  split <;> rfl

/-- The code behind a line ends with the report of the line. -/
theorem code_written :
    (s.written t text).code = s.code ++ ((t.report s text).map Instruction.op).toArray := by
  unfold written
  split
  · rename_i hoff
    simp [Tracer.report, hoff]
  · rfl

end Session

namespace Emit

variable (t : Tracer) (s : Session)

/-- Looking at the session answers it. -/
@[simp] theorem run_get : ((get : Emit Session).run t).run s = .ok s s := rfl

@[simp] theorem run_pure {α : Type} (a : α) : ((pure a : Emit α).run t).run s = .ok a s := rfl

@[simp] theorem run_modify (f : Session → Session) :
    ((modify f : Emit PUnit).run t).run s = .ok ⟨⟩ (f s) := rfl

@[simp] theorem run_refuse {α : Type} (e : BuildError) :
    ((refuse e : Emit α).run t).run s = .error e s := rfl

@[simp] theorem run_record (i : Instruction Label) :
    ((record i).run t).run s = .ok () { s with code := s.code.push i } := rfl

/-- An operation is recorded behind the code. -/
theorem run_op (o : Op) : ((op o).run t).run s = .ok () (s.recorded [o]) := by
  rw [op, run_record]
  simp [Session.recorded]

/-- A **line** is always accepted. -/
theorem run_line (text : String) : ((line text).run t).run s = .ok () (s.written t text) := by
  obtain ⟨level, probe⟩ := t
  cases level with
  | off => rfl
  | log =>
    simp only [Session.written, Tracer.report, Session.recorded, reduceCtorEq, if_false,
      List.map_nil, Array.append_empty]
    rfl
  | full =>
    have hpush : s.code ++ ([.push (.text (numberedLine s.nextLine text)),
        .call (Builtin.report s.sink)].map Instruction.op : List (Instruction Label)).toArray =
        (s.code.push (.op (.push (.text (numberedLine s.nextLine text))))).push
          (.op (.call (Builtin.report s.sink))) := by
      apply Array.toList_inj.1
      simp
    simp only [Session.written, Tracer.report, Session.recorded, reduceCtorEq, if_false, if_true]
    rw [hpush]
    rfl

theorem run_note (text : String) :
    ((note text).run t).run s = .ok () (s.written t ("    " ++ text)) := run_line t s _

/-- An operation behind its line is recorded behind the report of the line. -/
theorem run_traced (text : String) (o : Op) :
    ((traced text o).run t).run s = .ok () ((s.written t ("    " ++ text)).recorded [o]) := by
  rw [traced, run_bind, run_note]
  exact run_op t _ o

/-- A label that may be marked is marked, and its line is written. -/
theorem run_markHere {l : Label} (h : s.labels.checkUnmarked l = .ok ()) :
    ((markHere l).run t).run s =
      .ok () (({ s with labels := s.labels.mark l s.code.size } : Session).written t
        (l.text ++ ":")) := by
  have hcheck : ((ofExcept (s.labels.checkUnmarked l)).run t).run s = .ok () s := by
    rw [h]
    rfl
  simp only [markHere, run_bind, run_get, hcheck, run_modify, run_line]

/-- Beginning writes the first line. -/
theorem run_begin (t : Tracer) (s : Session) :
    ∃ x, (begin.run t).run s =
      .ok () (({ s with notices := s.notices.push (.message .debug x) } : Session).written t
        ("Begin method " ++ s.name ++ " \x7b")) := by
  refine ⟨"begin procedure `" ++ s.name ++ "` (trace: " ++ t.level.name ++ ")", ?_⟩
  rw [← run_line]
  rfl

end Emit

end Stackwright
