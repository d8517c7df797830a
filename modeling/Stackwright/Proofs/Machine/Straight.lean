import Stackwright.Proofs.Emission.Lines
import Stackwright.Proofs.Machine.Runs

/-! # Straight code

Operations in a row, without jumps: what they do is what each of them does in turn. A full trace puts
reports between them, which change nothing but what is kept for a reader; operations that look only at
the frame and at the heap do not notice.

* **`Exec.all ops`** — does operations in a row.
* **`Exec.Blind e`** — `e` looks only at the frame and at the heap.
* **`Op.Woven ops woven`** — the same operations with reports between them. -/

namespace Stackwright

/-! ## Operations in a row -/

/-- Does **operations in a row**. -/
def Exec.all : List Op → Exec Unit
  | [] => pure ()
  | o :: os => do
    o.execute
    all os

/-- Rows are done one after the other. -/
theorem Exec.all_append (os os' : List Op) :
    Exec.all (os ++ os') = (do Exec.all os; Exec.all os') := by
  induction os with
  | nil => rfl
  | cons o os ih =>
    rw [List.cons_append, all, all, ih]
    simp only [bind_assoc]

namespace Procedure

/-- The code of a procedure **has** operations in a row at a position. -/
def HasAt (p : Procedure) : Nat → List Op → Prop
  | _, [] => True
  | n, o :: os => p.code[n]? = some (.op o) ∧ p.HasAt (n + 1) os

/-- What a run does from a position on, as a computation on the frame. -/
def goOn (p : Procedure) (fuel position : Nat) : Exec Value := p.runFrom fuel position

/-- A run that gets to operations in a row does them and goes on behind them. -/
theorem goOn_all {p : Procedure} {n : Nat} {os : List Op} (h : p.HasAt n os) (fuel : Nat) :
    p.goOn (fuel + os.length) n = (do Exec.all os; p.goOn fuel (n + os.length)) := by
  induction os generalizing n with
  | nil => rfl
  | cons o os ih =>
    obtain ⟨ho, hos⟩ := h
    have hlength : fuel + (o :: os).length = (fuel + os.length) + 1 := by
      simp only [List.length_cons]
      omega
    have hposition : n + (o :: os).length = n + 1 + os.length := by
      simp only [List.length_cons]
      omega
    have hstep : p.goOn ((fuel + os.length) + 1) n =
        (do o.execute; p.goOn (fuel + os.length) (n + 1)) := by
      funext m
      show p.runFrom ((fuel + os.length) + 1) n m = (do _; _ : Exec Value).run m
      rw [runFrom, ho, Exec.run_bind]
      dsimp only
      rw [Instruction.execute, Exec.run_bind]
      cases o.execute.run m <;> rfl
    rw [hlength, hposition, hstep, ih hos, Exec.all, bind_assoc]

end Procedure

/-! ## Computations that do not look at what is kept for a reader -/

/-- Machines that differ at most in what is kept for a reader. -/
structure Machine.Alike (m m' : Machine) : Prop where
  /-- The frames are the same. -/
  frame : m'.frame = m.frame
  /-- The heaps are the same. -/
  heap : m'.world.heap = m.world.heap

theorem Machine.Alike.refl (m : Machine) : m.Alike m := ⟨rfl, rfl⟩

theorem Machine.Alike.trans {m m' m'' : Machine} (h : m.Alike m') (h' : m'.Alike m'') :
    m.Alike m'' :=
  ⟨h'.frame.trans h.frame, h'.heap.trans h.heap⟩

/-- Locations are read alike. -/
theorem Machine.Alike.read {m m' : Machine} (h : m.Alike m') (p : Location) :
    m'.read p = m.read p := by
  rcases p with i | i | ⟨a, i⟩ | b <;> simp only [Machine.read, h.frame, h.heap]

/-- The same outcome, up to what is kept for a reader. -/
inductive Exec.SameOutcome {α : Type} :
    EStateM.Result Halt Machine α → EStateM.Result Halt Machine α → Prop
  /-- Both answer the same. -/
  | ok {a : α} {m m' : Machine} (h : m.Alike m') : SameOutcome (.ok a m) (.ok a m')
  /-- Both stop for the same reason. -/
  | error {e : Halt} {m m' : Machine} (h : m.Alike m') : SameOutcome (.error e m) (.error e m')

theorem Machine.Alike.symm {m m' : Machine} (h : m.Alike m') : m'.Alike m :=
  ⟨h.frame.symm, h.heap.symm⟩

theorem Exec.SameOutcome.symm {α : Type} {r r' : EStateM.Result Halt Machine α}
    (h : SameOutcome r r') : SameOutcome r' r := by
  cases h with
  | ok h => exact .ok h.symm
  | error h => exact .error h.symm

namespace Exec

variable {α β : Type} {e : Exec α} {f : α → Exec β}

/-- A computation that looks only at the frame and at the heap. -/
def Blind (e : Exec α) : Prop :=
  ∀ m m' : Machine, m.Alike m' → SameOutcome (e.run m) (e.run m')

theorem blind_pure (a : α) : (pure a : Exec α).Blind := fun _ _ h => .ok h

theorem blind_fail (g : Fault) : (fail g : Exec α).Blind := fun _ _ h => .error h

theorem Blind.bind (he : e.Blind) (hf : ∀ a, (f a).Blind) : (e >>= f).Blind := by
  intro m m' h
  rw [run_bind, run_bind]
  have hsame := he m m' h
  generalize e.run m = r at hsame
  generalize e.run m' = r' at hsame
  cases hsame with
  | ok h₁ => exact hf _ _ _ h₁
  | error h₁ => exact .error h₁

/-- What looks at the heap alone is blind. -/
theorem blind_heap {g : Heap → Exec α} (hg : ∀ h, (g h).Blind) :
    ((liftM Host.heap : Exec Heap) >>= g).Blind := by
  intro m m' h
  have hread : ∀ m : Machine, (liftM Host.heap : Exec Heap).run m = .ok m.world.heap m := fun _ => rfl
  rw [run_bind, run_bind, hread, hread]
  dsimp only
  rw [h.heap]
  exact hg _ m m' h

/-- Making a cell is blind. -/
theorem blind_allocate (make : Heap → α × Heap) : (liftM (Host.allocate make) : Exec α).Blind := by
  intro m m' h
  have hmake : ∀ m : Machine, (liftM (Host.allocate make) : Exec α).run m =
      .ok (make m.world.heap).1
        { m with world := { m.world with heap := (make m.world.heap).2 } } := fun _ => rfl
  rw [hmake, hmake, h.heap]
  exact .ok ⟨h.frame, rfl⟩

theorem blind_pop : pop.Blind := by
  intro m m' h
  obtain ⟨frame, world⟩ := m
  obtain ⟨frame', world'⟩ := m'
  obtain rfl : frame' = frame := h.frame
  obtain ⟨args, locals, stack⟩ := frame'
  cases stack with
  | nil => exact .error ⟨rfl, h.heap⟩
  | cons v rest => exact .ok ⟨rfl, h.heap⟩

theorem blind_push (v : Value) : (push v).Blind := by
  intro m m' h
  exact .ok ⟨by simp [h.frame], h.heap⟩

/-- The value at a location is read off the frame and the heap. -/
theorem blind_load (p : Location) : (load p).Blind := by
  intro m m' h
  rw [run_load, run_load, h.read]
  cases m.read p with
  | ok v => exact .ok h
  | error g => exact .error h

theorem blind_readThrough (v : Value) : (readThrough v).Blind := by
  cases v with
  | address p => exact blind_load p
  | _ => exact blind_pure _

/-- Stopping at a value that is not what is expected is blind. -/
theorem blind_expect (expected : String) (v : Value) (o : Option α) :
    (liftM (Host.expect expected v o) : Exec α).Blind := by
  intro m m' h
  cases o with
  | some a => exact .ok h
  | none =>
    have hstop : ∀ m : Machine, (liftM (Host.expect expected v (none : Option α)) : Exec α).run m =
        .error (.fault (.typeMismatch expected (m.world.heap.debug v))) m := fun _ => rfl
    rw [hstop, hstop, h.heap]
    exact .error h

/-! ## Reports between operations -/

/-- A report changes only what is kept for a reader. -/
theorem run_report (sink : Sink) (text : String) (m : Machine) :
    ∃ m', (all [.push (.text text), .call (Builtin.report sink)]).run m = .ok () m' ∧ m.Alike m' :=
  ⟨_, rfl, ⟨rfl, by cases sink <;> first | rfl | (simp [World.report, World.record]; split <;> rfl)⟩⟩

end Exec

/-- The same operations with **reports** between them. -/
inductive Op.Woven (sink : Sink) : List Op → List Op → Prop
  /-- Nothing. -/
  | nil : Woven sink [] []
  /-- An operation. -/
  | op (o : Op) {os woven : List Op} (h : Woven sink os woven) : Woven sink (o :: os) (o :: woven)
  /-- A report. -/
  | report (text : String) {os woven : List Op} (h : Woven sink os woven) :
      Woven sink os (.push (.text text) :: .call (Builtin.report sink) :: woven)

namespace Op.Woven

variable {sink : Sink} {os os' woven woven' : List Op}

theorem append (h : Woven sink os woven) (h' : Woven sink os' woven') :
    Woven sink (os ++ os') (woven ++ woven') := by
  induction h with
  | nil => exact h'
  | op o _ ih => exact .op o ih
  | report text _ ih => exact .report text ih

/-- What reports a line is woven into nothing. -/
theorem of_report (t : Tracer) (s : Session) (text : String) :
    Woven s.sink [] (t.report s text) := by
  unfold Tracer.report
  split
  · exact .report _ .nil
  · exact .nil

/-- Reports between blind operations do not change what the operations do. -/
theorem sameOutcome (h : Woven sink os woven) (hblind : ∀ o ∈ os, o.execute.Blind) (m m' : Machine)
    (hm : m.Alike m') : Exec.SameOutcome ((Exec.all os).run m) ((Exec.all woven).run m') := by
  induction h generalizing m m' with
  | nil => exact .ok hm
  | @op o os woven _ ih =>
    obtain ⟨ho, hos⟩ := List.forall_mem_cons.1 hblind
    rw [Exec.all, Exec.all, Exec.run_bind, Exec.run_bind]
    have hsame := ho m m' hm
    generalize o.execute.run m = r at hsame
    generalize o.execute.run m' = r' at hsame
    cases hsame with
    | ok h₁ => exact ih hos _ _ h₁
    | error h₁ => exact .error h₁
  | @report text os woven _ ih =>
    obtain ⟨m₁, hrun, hlike⟩ := Exec.run_report sink text m'
    have hsplit : (.push (.text text) :: .call (Builtin.report sink) :: woven : List Op) =
        [.push (.text text), .call (Builtin.report sink)] ++ woven := rfl
    rw [hsplit, Exec.all_append, Exec.run_bind_ok hrun]
    exact ih hblind m m₁ (hm.trans hlike)

end Op.Woven

end Stackwright
