import Stackwright.Proofs.Builder.Bodies
import Stackwright.Proofs.Machine.Operands

/-! # What lies beneath a run

A run that never lacks an operand is the same run on top of any stack: it goes the same way, hands the same
arguments to the bodies that it enters, and comes to the same value or the same halt. This is why a construct
may be entered with results of other code still on the stack.

* **`Procedure.whereabouts p k n m`** — where a run is after some number of steps.
* **`Procedure.whereabouts_above`** — it is there above any values.
* **`Procedure.enters_above`** — so are the bodies that it enters.
* **`Procedure.runs_above`** — a run is the same above any stack. -/

namespace Stackwright

/-! ## Runs -/

/-- The **whereabouts** of a run. -/
inductive Whereabouts
  /-- It has come to a position. -/
  | reached (position : Nat) (m : Machine)
  /-- It has returned a value. -/
  | returned (v : Value) (m : Machine)
  /-- It has stopped without one. -/
  | stopped (r : Halt) (m : Machine)

namespace Whereabouts

/-- The same whereabouts with more values beneath the stack. -/
def above (below : List Value) : Whereabouts → Whereabouts
  | .reached n m => .reached n (m.above below)
  | .returned v m => .returned v (m.above below)
  | .stopped r m => .stopped r (m.above below)

/-- A run that **lacked an operand** stopped for want of it. -/
def Lacking (w : Whereabouts) : Prop := ∃ m, w = .stopped (.fault .stackUnderflow) m

/-- What a run has come to once its fuel is used up. -/
def outcome : Whereabouts → EStateM.Result Halt Machine Value
  | .reached _ m => .error .outOfFuel m
  | .returned v m => .ok v m
  | .stopped r m => .error r m

end Whereabouts

namespace Procedure

variable {p : Procedure} {k n : Nat} {m : Machine} {below : List Value}

/-- Where a run is **after some number of steps** from a position. -/
def whereabouts (p : Procedure) : Nat → Nat → Machine → Whereabouts
  | 0, n, m => .reached n m
  | k + 1, n, m =>
    match p.code[n]? with
    | none => .returned .null m
    | some i =>
      match (i.execute p.signature.ret).run m with
      | .ok .next m => p.whereabouts k (n + 1) m
      | .ok (.goto target) m => p.whereabouts k target m
      | .ok (.done v) m => .returned v m
      | .error r m => .stopped r m

attribute [local simp] whereabouts

/-- With fuel for some number of steps a run comes to what it is at after so many. -/
theorem runFrom_eq_outcome (p : Procedure) (k n : Nat) (m : Machine) :
    p.runFrom k n m = (p.whereabouts k n m).outcome := by
  induction k generalizing n m with
  | zero => rfl
  | succ k ih =>
    rw [runFrom, whereabouts]
    cases p.code[n]? with
    | none => rfl
    | some i =>
      dsimp only
      cases (i.execute p.signature.ret).run m with
      | error r m₁ => rfl
      | ok progress m₁ =>
        cases progress with
        | next => exact ih (n + 1) m₁
        | goto target => exact ih target m₁
        | done v => rfl

/-- Steps are counted on from where a run is. -/
theorem whereabouts_add {j n' : Nat} {m' : Machine} (h : p.whereabouts j n m = .reached n' m') (k : Nat) :
    p.whereabouts (j + k) n m = p.whereabouts k n' m' := by
  induction j generalizing n m with
  | zero =>
    cases h
    rw [Nat.zero_add]
  | succ j ih =>
    cases hi : p.code[n]? with
    | none => simp [hi] at h
    | some i =>
      rw [whereabouts, hi] at h
      rw [Nat.succ_add, whereabouts, hi]
      dsimp only at h ⊢
      cases hstep : (i.execute p.signature.ret).run m with
      | error r m₁ => simp [hstep] at h
      | ok progress m₁ =>
        rw [hstep] at h
        cases progress with
        | next => exact ih h
        | goto target => exact ih h
        | done v => cases h

/-- A run that has stopped for want of an operand stays so. -/
theorem lacking_of_le {j : Nat} (hjk : j ≤ k) (h : (p.whereabouts j n m).Lacking) :
    (p.whereabouts k n m).Lacking := by
  induction j generalizing k n m with
  | zero =>
    obtain ⟨m', hm'⟩ := h
    cases hm'
  | succ j ih =>
    obtain ⟨k, rfl⟩ := Nat.exists_eq_add_of_le' (Nat.succ_le_of_lt (Nat.lt_of_lt_of_le (Nat.succ_pos j) hjk))
    rw [whereabouts] at h ⊢
    cases hi : p.code[n]? with
    | none => rwa [hi] at h
    | some i =>
      rw [hi] at h
      dsimp only at h ⊢
      cases hstep : (i.execute p.signature.ret).run m with
      | error r m₁ => rwa [hstep] at h
      | ok progress m₁ =>
        rw [hstep] at h
        cases progress with
        | next => exact ih (Nat.le_of_succ_le_succ hjk) h
        | goto target => exact ih (Nat.le_of_succ_le_succ hjk) h
        | done v => exact h

/-- A run that does not lack an operand is after each number of steps **where it is above any values**. -/
theorem whereabouts_above (h : ¬ (p.whereabouts k n m).Lacking) (below : List Value) :
    p.whereabouts k n (m.above below) = (p.whereabouts k n m).above below := by
  -- by induction on the steps: the first one rests on its operands, and the rest of the run is above the values again
  induction k generalizing n m with
  | zero => rfl
  | succ k ih =>
    rw [whereabouts] at h ⊢
    rw [whereabouts]
    cases hi : p.code[n]? with
    | none => rfl
    | some i =>
      rw [hi] at h
      dsimp only at h ⊢
      have hstep := (i.rests_execute p.signature.ret).run_above_of_ne
        (m := m) (fun m' hlack => h (by rw [hlack]; exact ⟨m', rfl⟩)) below
      rw [hstep]
      cases hrun : (i.execute p.signature.ret).run m with
      | error r m₁ => rfl
      | ok progress m₁ =>
        rw [hrun] at h
        cases progress with
        | next => exact ih h
        | goto target => exact ih h
        | done v => rfl

/-! ## Bodies that are entered -/

/-- A body that is entered receives the same above any values, and finds the same world. -/
theorem enters_above {o : Op} {args : List Value} {w : World}
    (h : ∀ m', o.execute.run m ≠ .error (.fault .stackUnderflow) m') (below : List Value) :
    o.Enters (m.above below) args w ↔ o.Enters m args w := by
  cases o with
  | call f =>
    have henough : f.arity + 0 ≤ m.frame.stack.length :=
      Nat.le_of_not_lt fun hlack => h m (Exec.run_call_short hlack)
    have hopen := (Exec.rests_operandsOf f).run_above henough below
    constructor
    · rintro ⟨hrun⟩
      rw [hopen] at hrun
      -- what is received above the values was received without them
      cases hplain : (do Exec.openReceiver f (← Exec.popMany f.arity) : Exec _).run m with
      | ok x m₁ =>
        rw [hplain] at hrun
        cases hrun
        have hentered := Op.Enters.method hplain
        exact hentered
      | error r m₁ =>
        rw [hplain] at hrun
        cases hrun
    · rintro ⟨hrun⟩
      rename_i origin m'
      rw [hrun, Exec.outcomeAbove] at hopen
      have hentered := Op.Enters.method hopen
      exact hentered
  | instantiate c =>
    have henough : c.params.length + 0 ≤ m.frame.stack.length :=
      Nat.le_of_not_lt fun hlack => h m (Exec.run_bind_error (Exec.run_popMany_short hlack))
    have hpop := (Exec.rests_popMany c.params.length).run_above henough below
    constructor
    · rintro ⟨⟩
      rename_i params made m' hrun hfresh
      rw [hpop] at hrun
      cases hplain : (Exec.popMany c.params.length).run m with
      | ok x m₁ =>
        rw [hplain] at hrun
        cases hrun
        exact .maker hplain hfresh
      | error r m₁ =>
        rw [hplain] at hrun
        cases hrun
    · rintro ⟨⟩
      rename_i params made m' hrun hfresh
      rw [hrun] at hpop
      exact .maker hpop hfresh
  | _ => exact ⟨nofun, nofun⟩

/-- Where a run goes on from, no operand is lacking. -/
theorem not_lacking_here {j n' : Nat} {m' : Machine} {i : Instruction Nat} (hjk : j < k)
    (h : ¬ (p.whereabouts k n m).Lacking) (hreached : p.whereabouts j n m = .reached n' m')
    (hi : p.code[n']? = some i) :
    ∀ m₁, (i.execute p.signature.ret).run m' ≠ .error (.fault .stackUnderflow) m₁ := by
  intro m₁ hlack
  refine h (lacking_of_le (j := j + 1) hjk ?_)
  rw [whereabouts_add hreached, whereabouts, hi]
  dsimp only
  rw [hlack]
  exact ⟨m₁, rfl⟩

/-! ## The frame rule -/

/-- **A run is the same above any stack.** (1) An instruction with its operands on the stack does above any
values what it does without them, whether it goes on, returns or stops; and when it goes on, its results are all
that it leaves above them. (2) A run of any procedure, from any position and machine, that does not stop for want
of an operand comes to the same above any values: the same result or the same halt, with the same arguments,
locals and world, and the values beneath what is left of its stack. After each number of steps on the way it is
where it is without them; and each body of a method or constructor that it enters receives the same arguments
there, and finds the same world. -/
theorem runs_above (p : Procedure) :
    (∀ (i : Instruction Nat) (ret : Option Ty) (m : Machine) (operands below : List Value),
      operands.length = i.operands ret →
        (i.execute ret).run (m.withStack (operands ++ below)) =
          Exec.outcomeAbove below ((i.execute ret).run (m.withStack operands)) ∧
        ∀ x m', (i.execute ret).run (m.withStack operands) = .ok x m' → m'.frame.stack.length = i.results) ∧
    ∀ (k n : Nat) (m : Machine) (below : List Value), ¬ (p.whereabouts k n m).Lacking →
      p.runFrom k n (m.above below) = Exec.outcomeAbove below (p.runFrom k n m) ∧
      (∀ j ≤ k, p.whereabouts j n (m.above below) = (p.whereabouts j n m).above below) ∧
      ∀ j < k, ∀ n' m' o, p.whereabouts j n m = .reached n' m' → p.code[n']? = some (.op o) →
        ∀ args w, o.Enters (m'.above below) args w ↔ o.Enters m' args w := by
  constructor
  · intro i ret m operands below hoperands
    have hrests := i.rests_execute ret
    refine ⟨hrests.run_above (m := m.withStack operands) (Nat.le_of_eq hoperands.symm) below, ?_⟩
    intro x m' hrun
    have hheight := hrests.height hrun
    rw [Machine.stack_withStack] at hheight
    omega
  · intro k n m below h
    refine ⟨?_, fun j hj => whereabouts_above (fun hlack => h (lacking_of_le hj hlack)) below, ?_⟩
    · rw [runFrom_eq_outcome, runFrom_eq_outcome, whereabouts_above h]
      cases p.whereabouts k n m <;> rfl
    · intro j hj n' m' o hreached ho args w
      refine enters_above (fun m₁ hlack => ?_) below
      exact not_lacking_here hj h hreached ho m₁ (Exec.run_bind_error hlack)

/-- A procedure that joins what is on the stack. -/
def joining : Procedure where
  name := "join"
  signature := ⟨[], some .string⟩
  locals := []
  code := #[.op (.call Builtin.joinTwo), .ret]

/-- Above null two texts are joined as they are without it, and null stays. -/
theorem runs_above_joining :
    joining.runFrom 2 0 ⟨⟨#[], #[], [.text "b", .text "a", .null]⟩, {}⟩ =
      .ok (.text "ab") ⟨⟨#[], #[], [.null]⟩, {}⟩ ∧
    (Instruction.execute none (.op .pop)).run ⟨⟨#[], #[], [.text "a", .null]⟩, {}⟩ =
      .ok .next ⟨⟨#[], #[], [.null]⟩, {}⟩ := by
  have hplain : joining.whereabouts 2 0 ⟨⟨#[], #[], [.text "b", .text "a"]⟩, {}⟩ =
      .returned (.text "ab") ⟨⟨#[], #[], []⟩, {}⟩ := by
    with_unfolding_all rfl
  obtain ⟨hone, hrun⟩ := runs_above joining
  constructor
  · have hpresent : ¬ (joining.whereabouts 2 0 ⟨⟨#[], #[], [.text "b", .text "a"]⟩, {}⟩).Lacking := by
      rintro ⟨m, hm⟩
      rw [hplain] at hm
      cases hm
    have habove := (hrun 2 0 ⟨⟨#[], #[], [.text "b", .text "a"]⟩, {}⟩ [.null] hpresent).1
    rw [runFrom_eq_outcome joining 2 0 ⟨⟨#[], #[], [.text "b", .text "a"]⟩, {}⟩, hplain] at habove
    exact habove
  · exact (hone (.op .pop) none ⟨⟨#[], #[], []⟩, {}⟩ [.text "a"] [.null] rfl).1

end Procedure

end Stackwright
