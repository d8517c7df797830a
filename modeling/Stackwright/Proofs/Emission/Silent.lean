import Mathlib.Tactic.Simps.Basic
import Stackwright.Emission.Loops
import Stackwright.Proofs.Emission.Lines
import Stackwright.Proofs.Session.Sound

/-! # Silent emission

What the building blocks of emission calls do to a session when nothing is traced: an operation is
recorded and nothing else, and a line does nothing at all. -/

namespace Stackwright

namespace Session

variable (s : Session)

/-- Without a trace a line leaves the session as it is. -/
@[simp] theorem written_silent (text : String) : s.written .silent text = s := rfl

/-- The session with a jump recorded. -/
@[simps code labels locals constructs formatArray notices nextLine]
def jumped (j : Jump Label) : Session :=
  { s with labels := s.labels.target j.targets, code := s.code.push (.jump j) }

/-- The session with the next label defined. -/
@[simps code labels locals constructs formatArray notices nextLine]
def defined : Session := { s with labels := s.labels.define }

/-- The session with a label marked at the current position. -/
@[simps code labels locals constructs formatArray notices nextLine]
def markedHere (l : Label) : Session := { s with labels := s.labels.mark l s.code.size }

/-- The session with other open constructs. -/
@[simps code labels locals constructs formatArray notices nextLine]
def withConstructs (cs : List Construct) : Session := { s with constructs := cs }

/-- The session with another local. -/
@[simps code labels locals constructs formatArray notices nextLine]
def declared (t : Ty) (name : String) : Session := { s with locals := s.locals.push (t, name) }

/-- The session with another loop. -/
@[simps code labels locals constructs formatArray notices nextLine]
def numbered : Session := { s with nextLoop := s.nextLoop + 1 }

/-- The name of a local in transcripts. -/
def nameOf (l : Local) : String :=
  match s.locals[l.index]? with
  | some (_, name) => name
  | none => "?"

theorem recorded_recorded (os os' : List Op) :
    (s.recorded os).recorded os' = s.recorded (os ++ os') := by
  simp [recorded]

@[simp] theorem code_recorded (os : List Op) :
    (s.recorded os).code = s.code ++ (os.map Instruction.op).toArray := rfl

@[simp] theorem labels_recorded (os : List Op) : (s.recorded os).labels = s.labels := rfl

@[simp] theorem locals_recorded (os : List Op) : (s.recorded os).locals = s.locals := rfl

@[simp] theorem constructs_recorded (os : List Op) : (s.recorded os).constructs = s.constructs := rfl

@[simp] theorem formatArray_recorded (os : List Op) : (s.recorded os).formatArray = s.formatArray :=
  rfl

@[simp] theorem notices_recorded (os : List Op) : (s.recorded os).notices = s.notices := rfl

@[simp] theorem nextLine_recorded (os : List Op) : (s.recorded os).nextLine = s.nextLine := rfl

/-! ## Growing -/

theorem recorded_cons (o : Op) (os : List Op) :
    s.recorded (o :: os) = (s.recorded [o]).recorded os := by
  simp [recorded]

theorem grows_recorded (os : List Op) : s.Grows (s.recorded os) := by
  induction os generalizing s with
  | nil =>
    have hsame : s.recorded [] = s := by simp [recorded]
    rw [hsame]
    exact .refl s
  | cons o os ih =>
    have hone : s.recorded [o] = { s with code := s.code.push (.op o) } := by simp [recorded]
    have hchange : s.Change (s.recorded [o]) := by
      rw [hone]
      exact .record _ rfl
    rw [recorded_cons]
    exact hchange.grows.trans (ih _)

/-- A line grows a session. -/
theorem grows_written (t : Tracer) (text : String) : s.Grows (s.written t text) := by
  unfold written
  split
  · exact .refl s
  · let s₁ : Session := s.recorded (t.report s text)
    let s₂ : Session := { s₁ with nextLine := s.nextLine + 1 }
    have hline : s₁.Change s₂ := .line _
    have hnotice : s₂.Change { s₂ with notices := s.notices.push (.line s.nextLine text) } :=
      .notify _
    exact ((s.grows_recorded _).trans hline.grows).trans hnotice.grows

variable {s} {s' : Session}

theorem Grows.recorded (h : s.Grows s') (os : List Op) : s.Grows (s'.recorded os) :=
  h.trans (s'.grows_recorded os)

theorem Grows.defined (h : s.Grows s') : s.Grows s'.defined := h.trans Change.define.grows

theorem Grows.declared (h : s.Grows s') (t : Ty) (name : String) : s.Grows (s'.declared t name) :=
  h.trans (Change.declare t name).grows

theorem Grows.numbered (h : s.Grows s') : s.Grows s'.numbered := h.trans Change.loop.grows

/-- A jump to labels that are known and inside the procedure. -/
theorem Grows.jumped (h : s.Grows s') {j : Jump Label} (hj : ∀ l ∈ j.targets, s'.labels.Known l)
    (hl : ∀ l ∈ j.targets, l.id ≠ 0) : s.Grows (s'.jumped j) :=
  h.trans (Change.jump j (Marks.checkKnown_eq_ok.2 hj) hl).grows

theorem Grows.markedHere (h : s.Grows s') {l : Label} (hk : s'.labels.Known l)
    (hm : ¬ s'.labels.Marked l) (hl : l.id ≠ 0) : s.Grows (s'.markedHere l) :=
  h.trans (Change.mark l (Marks.checkUnmarked_eq_ok.2 ⟨hk, hm⟩) hl).grows

theorem Grows.opened (h : s.Grows s') {c : Construct} (hc : ∀ l ∈ c.labels, l.id ≠ 0) :
    s.Grows (s'.withConstructs (c :: s'.constructs)) := h.trans (Change.opened c hc).grows

theorem Grows.closed (h : s.Grows s') : s.Grows (s'.withConstructs (s'.constructs.drop 1)) :=
  h.trans Change.closed.grows

end Session

namespace Emit

variable (t : Tracer) (s : Session)

theorem run_note_silent (text : String) : ((note text).run .silent).run s = .ok () s :=
  run_note .silent s text

theorem run_traced_silent (text : String) (o : Op) :
    ((traced text o).run .silent).run s = .ok () (s.recorded [o]) := run_traced .silent s text o

theorem run_probe_silent (T : Ty) : ((probe T).run .silent).run s = .ok () s := rfl

/-- A jump to known labels is recorded. -/
theorem run_jump {j : Jump Label} (h : s.labels.checkKnown j.targets = .ok ()) :
    ((jump j).run t).run s = .ok () (s.jumped j) := by
  have hcheck : ((ofExcept (s.labels.checkKnown j.targets)).run t).run s = .ok () s := by
    rw [h]
    rfl
  simp only [jump, run_bind, run_get, hcheck, run_modify, run_record]
  rfl

/-- A jump to a label that is not known is refused. -/
theorem run_jump_unknown {j : Jump Label} {e : BuildError}
    (h : s.labels.checkKnown j.targets = .error e) : ((jump j).run t).run s = .error e s := by
  have hcheck : ((ofExcept (s.labels.checkKnown j.targets)).run t).run s = .error e s := by
    rw [h]
    rfl
  simp only [jump, run_bind, run_get, hcheck]

/-- A label that may not be marked is refused. -/
theorem run_markHere_error {l : Label} {e : BuildError} (h : s.labels.checkUnmarked l = .error e) :
    ((markHere l).run t).run s = .error e s := by
  have hcheck : ((ofExcept (s.labels.checkUnmarked l)).run t).run s = .error e s := by
    rw [h]
    rfl
  simp only [markHere, run_bind, run_get, hcheck]

theorem run_takeInnermost :
    (takeInnermost.run t).run s = .ok s.constructs.head? (s.withConstructs (s.constructs.drop 1)) :=
  rfl

theorem run_newLabel : (newLabel.run t).run s = .ok s.labels.next s.defined := rfl

/-- A label that may be marked is marked. -/
theorem run_markHere_silent {l : Label} (h : s.labels.checkUnmarked l = .ok ()) :
    ((markHere l).run .silent).run s = .ok () (s.markedHere l) := run_markHere .silent s h

theorem run_openConstruct (c : Construct) :
    ((openConstruct c).run t).run s = .ok () (s.withConstructs (c :: s.constructs)) := rfl

/-- A new loop has the next number, and two new labels. -/
theorem run_newLoop (slot : Option Local) (bound : Operand) :
    ((newLoop slot bound).run t).run s =
      .ok ⟨⟨s.labels.session, s.nextLoop⟩, slot, s.labels.next, s.defined.labels.next, none, bound⟩
        s.numbered.defined.defined := rfl

/-- A conditional that is innermost is taken. -/
theorem run_takeConditional {otherwise finish : Label} {cs : List Construct}
    (h : s.constructs = .conditional otherwise finish :: cs) :
    (takeConditional.run t).run s = .ok (otherwise, finish) (s.withConstructs cs) := by
  have htake : (takeInnermost.run t).run s =
      .ok (some (.conditional otherwise finish)) (s.withConstructs cs) := by
    show EStateM.Result.ok s.constructs.head? (s.withConstructs (s.constructs.drop 1)) = _
    rw [h]
    rfl
  rw [takeConditional, run_bind, htake]
  rfl

/-- A counted loop that is innermost is taken. -/
theorem run_takeCounted {loop : LoopState} {cs : List Construct}
    (h : s.constructs = .counted loop :: cs) :
    (takeCounted.run t).run s = .ok loop (s.withConstructs cs) := by
  have htake : (takeInnermost.run t).run s = .ok (some (.counted loop)) (s.withConstructs cs) := by
    show EStateM.Result.ok s.constructs.head? (s.withConstructs (s.constructs.drop 1)) = _
    rw [h]
    rfl
  rw [takeCounted, run_bind, htake]
  rfl

/-! ## Locals -/

theorem run_newLocal_silent (T : Ty) (name : String) :
    ((newLocal T name).run .silent).run s = .ok ⟨s.locals.size, T⟩ (s.declared T name) := rfl

/-- A new local is declared behind the others. -/
theorem run_newLocal (T : Ty) (name : String) :
    ((newLocal T name).run t).run s = .ok ⟨s.locals.size, T⟩
      ((s.declared T name).written t ("    " ++ ("// Declare local '" ++ name ++ "' of type " ++ T.path))) := by
  rw [newLocal, run_bind, run_get]
  dsimp only
  rw [run_bind, run_modify]
  dsimp only
  rw [run_bind, run_note]
  rfl

theorem run_nameOf (l : Local) : ((nameOf l).run t).run s = .ok (s.nameOf l) s := by
  rw [nameOf, run_bind, run_get, Session.nameOf]
  dsimp only
  cases s.locals[l.index]? with
  | none => rfl
  | some p => rfl

theorem run_loadLocal_silent (l : Local) :
    ((loadLocal l).run .silent).run s = .ok () (s.recorded [.loadLocal l.index]) := by
  rw [loadLocal, run_bind, run_nameOf]
  dsimp only
  rw [run_bind, run_note_silent]
  dsimp only
  rw [run_bind, run_op]
  exact run_probe_silent _ _

theorem run_storeLocal_silent (l : Local) :
    ((storeLocal l).run .silent).run s =
      .ok () (s.recorded [.storeLocal l.index l.type.storedAs?]) := by
  rw [storeLocal, run_bind, run_nameOf]
  dsimp only
  rw [run_bind, run_note_silent]
  dsimp only
  rw [run_bind, run_probe_silent]
  exact run_op _ _ _

/-! ## Conditionals -/

/-- A conditional is opened by a jump on the negated comparison to the second of two new labels. -/
theorem run_openIf_silent (c : Comparison) :
    ((openIf c).run .silent).run s =
      .ok () ((s.defined.defined.jumped (.compare c.negated s.defined.labels.next)).withConstructs
        (.conditional s.defined.labels.next s.labels.next :: s.constructs)) := by
  have hknown : s.defined.defined.labels.checkKnown
      (Jump.compare c.negated s.defined.labels.next).targets = .ok () := by
    rw [Marks.checkKnown_eq_ok]
    intro l hl
    obtain rfl := List.mem_singleton.1 hl
    exact ⟨rfl, by simp [Session.defined, Marks.next]⟩
  rw [openIf, run_bind, run_newLabel]
  dsimp only
  rw [jumpUnless, run_bind, run_bind, run_newLabel]
  dsimp only
  rw [run_bind, run_note_silent]
  dsimp only
  rw [run_bind, run_jump _ _ hknown]
  rfl

/-- The last alternative is opened behind a jump to the end, where the other label is marked. -/
theorem run_openElse_silent {otherwise finish : Label} {cs : List Construct}
    (h : s.constructs = .conditional otherwise finish :: cs) (hf : s.labels.Known finish)
    (ho : s.labels.Known otherwise) (hm : ¬ s.labels.Marked otherwise) :
    (openElse.run .silent).run s =
      .ok () (((s.jumped (.always finish)).markedHere otherwise).withConstructs
        (.conditional finish finish :: cs)) := by
  have hknown : (s.withConstructs cs).labels.checkKnown (Jump.always finish).targets = .ok () := by
    rw [Marks.checkKnown_eq_ok]
    intro l hl
    obtain rfl := List.mem_singleton.1 hl
    exact hf
  -- the jump notes a target and marks nothing
  have hfree : ((s.withConstructs cs).jumped (.always finish)).labels.checkUnmarked otherwise =
      .ok () := by
    rw [Marks.checkUnmarked_eq_ok]
    refine ⟨⟨by simpa [Session.jumped, Session.withConstructs] using ho.1,
      by simpa [Session.jumped, Session.withConstructs] using ho.2⟩, ?_⟩
    rintro ⟨p, hp⟩
    exact hm ⟨p, Marks.markedAt_target.1 hp⟩
  rw [openElse, run_bind, nextAlternative, run_bind, run_takeConditional _ _ h]
  dsimp only
  rw [run_bind, jumpTo, run_bind, run_note_silent]
  dsimp only
  rw [run_jump _ _ hknown]
  dsimp only
  rw [run_bind, run_markHere_silent _ hfree]
  rfl

/-- A conditional in its last alternative is closed by marking its end. -/
theorem run_closeIf_silent {l : Label} {cs : List Construct}
    (h : s.constructs = .conditional l l :: cs) (hl : s.labels.Known l) (hm : ¬ s.labels.Marked l) :
    (closeIf.run .silent).run s = .ok () ((s.markedHere l).withConstructs cs) := by
  have hfree : (s.withConstructs cs).labels.checkUnmarked l = .ok () :=
    Marks.checkUnmarked_eq_ok.2 ⟨hl, hm⟩
  rw [closeIf, run_bind, run_takeConditional _ _ h]
  dsimp only
  rw [if_pos rfl]
  exact run_markHere_silent _ hfree

end Emit

end Stackwright
