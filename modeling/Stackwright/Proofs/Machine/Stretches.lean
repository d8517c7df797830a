import Stackwright.Proofs.Machine.Straight

/-! # Stretches of code

A **stretch** of a procedure is the code between two positions. A run through it crosses it, or stops
inside, or goes on inside without end. What is claimed of every crossing and of every stop is shown step by
step, for any number of steps; so stretches are put together from shorter ones, and loops need no measure.

* **`Procedure.Within p first last n m n' m'`** — a run gets from one position to another inside a stretch.
* **`Procedure.Crosses p first last m m'`**, **`Procedure.Stops p first last m e m'`** — it gets to the
  end of the stretch, or stops before.
* **`Procedure.Leads p first last E Q n m`** — whatever a run comes to, it crosses with `Q` or stops with
  `E`. -/

namespace Stackwright

namespace Procedure

/-! ## Runs inside a stretch -/

/-- A run gets from one position to another **within a stretch**: each instruction that it does on the way
is one of the stretch. -/
inductive Within (p : Procedure) (first last : Nat) : Nat → Machine → Nat → Machine → Prop
  /-- It is there. -/
  | here (n : Nat) (m : Machine) : Within p first last n m n m
  /-- An instruction goes on with the next one. -/
  | next {n n' : Nat} {m m₁ m' : Machine} {i : Instruction Nat} (hfirst : first ≤ n) (hlast : n < last)
      (hi : p.code[n]? = some i) (hstep : (i.execute p.signature.ret).run m = .ok .next m₁)
      (h : Within p first last (n + 1) m₁ n' m') : Within p first last n m n' m'
  /-- A jump goes on elsewhere. -/
  | goto {n target n' : Nat} {m m₁ m' : Machine} {i : Instruction Nat} (hfirst : first ≤ n)
      (hlast : n < last) (hi : p.code[n]? = some i)
      (hstep : (i.execute p.signature.ret).run m = .ok (.goto target) m₁)
      (h : Within p first last target m₁ n' m') : Within p first last n m n' m'

/-- A run through a stretch **crosses** it: it gets to the end. -/
def Crosses (p : Procedure) (first last : Nat) (m m' : Machine) : Prop :=
  p.Within first last first m last m'

/-- A run through a stretch **stops** inside of it. -/
def Stops (p : Procedure) (first last : Nat) (m : Machine) (e : Halt) (m' : Machine) : Prop :=
  ∃ n m₁ i, p.Within first last first m n m₁ ∧ first ≤ n ∧ n < last ∧ p.code[n]? = some i ∧
    (i.execute p.signature.ret).run m₁ = .error e m'

variable {p : Procedure} {first last mid n n' n'' : Nat} {m m' m'' : Machine} {e : Halt}

theorem Within.trans (h : p.Within first last n m n' m') (h' : p.Within first last n' m' n'' m'') :
    p.Within first last n m n'' m'' := by
  induction h with
  | here => exact h'
  | next hfirst hlast hi hstep _ ih => exact .next hfirst hlast hi hstep (ih h')
  | goto hfirst hlast hi hstep _ ih => exact .goto hfirst hlast hi hstep (ih h')

/-- What is within a stretch is within a longer one. -/
theorem Within.longer {first' last' : Nat} (h : p.Within first last n m n' m') (hfirst : first' ≤ first)
    (hlast : last ≤ last') : p.Within first' last' n m n' m' := by
  induction h with
  | here => exact .here _ _
  | next hf hl hi hstep _ ih =>
    exact .next (Nat.le_trans hfirst hf) (Nat.lt_of_lt_of_le hl hlast) hi hstep ih
  | goto hf hl hi hstep _ ih =>
    exact .goto (Nat.le_trans hfirst hf) (Nat.lt_of_lt_of_le hl hlast) hi hstep ih

/-- A run that gets to another position goes on from there. -/
theorem Within.runFrom (h : p.Within first last n m n' m') :
    ∃ steps, ∀ fuel, p.runFrom (fuel + steps) n m = p.runFrom fuel n' m' := by
  induction h with
  | here => exact ⟨0, fun _ => rfl⟩
  | next _ _ hi hstep _ ih =>
    obtain ⟨steps, hrun⟩ := ih
    refine ⟨steps + 1, fun fuel => ?_⟩
    rw [← Nat.add_assoc, Procedure.runFrom, hi]
    dsimp only
    rw [hstep]
    exact hrun fuel
  | goto _ _ hi hstep _ ih =>
    obtain ⟨steps, hrun⟩ := ih
    refine ⟨steps + 1, fun fuel => ?_⟩
    rw [← Nat.add_assoc, Procedure.runFrom, hi]
    dsimp only
    rw [hstep]
    exact hrun fuel

/-- A run that stops in a stretch stops. -/
theorem Stops.runFrom (h : p.Stops first last m e m') :
    ∃ steps, ∀ fuel, p.runFrom (fuel + steps) first m = .error e m' := by
  obtain ⟨n, m₁, i, hwithin, -, -, hi, hstep⟩ := h
  obtain ⟨steps, hrun⟩ := hwithin.runFrom
  refine ⟨1 + steps, fun fuel => ?_⟩
  rw [← Nat.add_assoc, hrun, Procedure.runFrom, hi]
  dsimp only
  rw [hstep]

/-- Operations in a row that are done are crossed. -/
theorem within_all {os : List Op} (h : p.HasAt n os) (hfirst : first ≤ n)
    (hlast : n + os.length ≤ last) (hrun : (Exec.all os).run m = .ok () m') :
    p.Within first last n m (n + os.length) m' := by
  induction os generalizing n m with
  | nil =>
    cases hrun
    exact .here _ _
  | cons o os ih =>
    obtain ⟨ho, hos⟩ := h
    rw [List.length_cons] at hlast ⊢
    rw [Exec.all, Exec.run_bind] at hrun
    split at hrun
    · rename_i m₁ hone
      have hstep : ((Instruction.op o).execute p.signature.ret).run m = .ok .next m₁ := by
        rw [Instruction.execute, Exec.run_bind_ok hone]
        rfl
      rw [show n + (os.length + 1) = n + 1 + os.length by omega]
      exact .next hfirst (by omega) ho hstep (ih hos (by omega) (by omega) hrun)
    · cases hrun

/-! ## Whatever a run comes to -/

/-- For a number of steps, a run stays in a stretch until it crosses it with `Q` or stops with `E`. -/
def LeadsFor (p : Procedure) (first last : Nat) (E : Halt → Machine → Prop) (Q : Machine → Prop) :
    Nat → Nat → Machine → Prop
  | 0, _, _ => True
  | steps + 1, n, m =>
    (n = last ∧ Q m) ∨ (first ≤ n ∧ n < last ∧ ∃ i, p.code[n]? = some i ∧
      match (i.execute p.signature.ret).run m with
      | .ok .next m => LeadsFor p first last E Q steps (n + 1) m
      | .ok (.goto target) m => LeadsFor p first last E Q steps target m
      | .ok (.done _) _ => False
      | .error e m => E e m)

/-- A run from a position **leads** through a stretch: it stays there until it crosses it with `Q` or stops
with `E`. -/
def Leads (p : Procedure) (first last : Nat) (E : Halt → Machine → Prop) (Q : Machine → Prop) (n : Nat)
    (m : Machine) : Prop :=
  ∀ steps, p.LeadsFor first last E Q steps n m

variable {E E' : Halt → Machine → Prop} {Q Q' : Machine → Prop} {steps : Nat}

/-- What is known of a run is known wherever it gets. -/
theorem Leads.within (h : p.Leads first last E Q n m) (hwithin : p.Within first last n m n' m') :
    p.Leads first last E Q n' m' := by
  induction hwithin with
  | here => exact h
  | @next n n' m m₁ m' i _ hl hi hstep _ ih =>
    refine ih fun steps => ?_
    rcases h (steps + 1) with ⟨heq, -⟩ | ⟨-, -, i', hi', hnext⟩
    · omega
    · rw [hi] at hi'
      cases hi'
      rw [hstep] at hnext
      exact hnext
  | @goto n target n' m m₁ m' i _ hl hi hstep _ ih =>
    refine ih fun steps => ?_
    rcases h (steps + 1) with ⟨heq, -⟩ | ⟨-, -, i', hi', hnext⟩
    · omega
    · rw [hi] at hi'
      cases hi'
      rw [hstep] at hnext
      exact hnext

theorem Leads.crosses (h : p.Leads first last E Q first m) (hc : p.Crosses first last m m') : Q m' := by
  rcases h.within hc 1 with ⟨-, hq⟩ | ⟨-, hlt, -⟩
  · exact hq
  · exact absurd hlt (Nat.lt_irrefl _)

theorem Leads.stops (h : p.Leads first last E Q first m) (hs : p.Stops first last m e m') : E e m' := by
  obtain ⟨n, m₁, i, hwithin, -, hlt, hi, hstep⟩ := hs
  rcases h.within hwithin 1 with ⟨heq, -⟩ | ⟨-, -, i', hi', hnext⟩
  · omega
  · rw [hi] at hi'
    cases hi'
    rw [hstep] at hnext
    exact hnext

/-- A run that crosses a stretch and stops behind it stops. -/
theorem Crosses.stops (h : p.Crosses first mid m m') (h' : p.Stops mid last m' e m'') (hfirst : first ≤ mid)
    (hmid : mid ≤ last) : p.Stops first last m e m'' := by
  obtain ⟨n, m₁, i, hwithin, hn, hlast, hi, hstep⟩ := h'
  exact ⟨n, m₁, i, (h.longer (Nat.le_refl _) hmid).trans (hwithin.longer hfirst (Nat.le_refl _)),
    Nat.le_trans hfirst hn, hlast, hi, hstep⟩

/-- What stops in a stretch stops in a longer one. -/
theorem Stops.longer {last' : Nat} (h : p.Stops first last m e m') (hlast : last ≤ last') :
    p.Stops first last' m e m' := by
  obtain ⟨n, m₁, i, hwithin, hn, hlt, hi, hstep⟩ := h
  exact ⟨n, m₁, i, hwithin.longer (Nat.le_refl _) hlast, hn, Nat.lt_of_lt_of_le hlt hlast, hi, hstep⟩

theorem LeadsFor.imp (h : p.LeadsFor first last E Q steps n m) (hE : ∀ e m, E e m → E' e m)
    (hQ : ∀ m, Q m → Q' m) : p.LeadsFor first last E' Q' steps n m := by
  induction steps generalizing n m with
  | zero => trivial
  | succ steps ih =>
    refine h.imp (fun h => ⟨h.1, hQ _ h.2⟩) fun ⟨hf, hl, i, hi, hnext⟩ => ⟨hf, hl, i, hi, ?_⟩
    split at hnext
    · exact ih hnext
    · exact ih hnext
    · exact hnext
    · exact hE _ _ hnext

/-- A stretch may begin earlier. -/
theorem LeadsFor.earlier {first' : Nat} (h : p.LeadsFor first last E Q steps n m)
    (hfirst : first' ≤ first) : p.LeadsFor first' last E Q steps n m := by
  induction steps generalizing n m with
  | zero => trivial
  | succ steps ih =>
    refine h.imp_right fun ⟨hf, hl, i, hi, hnext⟩ => ⟨Nat.le_trans hfirst hf, hl, i, hi, ?_⟩
    split at hnext
    · exact ih hnext
    · exact ih hnext
    · exact hnext
    · exact hnext

/-- A stretch is crossed in **two parts**. -/
theorem LeadsFor.seq (h : p.LeadsFor first mid E Q steps n m) (hmid : mid ≤ last)
    (h' : ∀ steps' ≤ steps, ∀ m', Q m' → p.LeadsFor first last E Q' steps' mid m') :
    p.LeadsFor first last E Q' steps n m := by
  induction steps generalizing n m with
  | zero => trivial
  | succ steps ih =>
    rcases h with ⟨rfl, hq⟩ | ⟨hf, hl, i, hi, hnext⟩
    · exact h' _ (Nat.le_refl _) m hq
    · refine .inr ⟨hf, Nat.lt_of_lt_of_le hl hmid, i, hi, ?_⟩
      have hlater : ∀ steps' ≤ steps, ∀ m', Q m' → p.LeadsFor first last E Q' steps' mid m' :=
        fun steps' hle => h' steps' (Nat.le_succ_of_le hle)
      split at hnext
      · exact ih hnext hlater
      · exact ih hnext hlater
      · exact hnext
      · exact hnext

/-- At the end there is nothing left to do. -/
theorem LeadsFor.done (hq : Q m) : p.LeadsFor first last E Q steps last m := by
  cases steps with
  | zero => trivial
  | succ steps => exact .inl ⟨rfl, hq⟩

/-- One **operation**. -/
theorem LeadsFor.op {o : Op} (hi : p.code[n]? = some (.op o)) (hfirst : first ≤ n) (hlast : n < last)
    (hok : ∀ m', o.execute.run m = .ok () m' →
      ∀ steps' < steps, p.LeadsFor first last E Q steps' (n + 1) m')
    (herror : ∀ e m', o.execute.run m = .error e m' → E e m') :
    p.LeadsFor first last E Q steps n m := by
  cases steps with
  | zero => trivial
  | succ steps =>
    refine .inr ⟨hfirst, hlast, _, hi, ?_⟩
    rw [Instruction.execute, Exec.run_bind]
    cases hrun : o.execute.run m with
    | error e m' => exact herror e m' hrun
    | ok u m' => exact hok m' hrun steps (Nat.lt_succ_self _)

/-- One **jump**. -/
theorem LeadsFor.jump {j : Jump Nat} (hi : p.code[n]? = some (.jump j)) (hfirst : first ≤ n)
    (hlast : n < last)
    (hok : ∀ target m', j.follow.run m = .ok target m' →
      ∀ steps' < steps, p.LeadsFor first last E Q steps' (target.getD (n + 1)) m')
    (herror : ∀ e m', j.follow.run m = .error e m' → E e m') :
    p.LeadsFor first last E Q steps n m := by
  cases steps with
  | zero => trivial
  | succ steps =>
    refine .inr ⟨hfirst, hlast, _, hi, ?_⟩
    rw [Instruction.execute, Exec.run_bind]
    cases hrun : j.follow.run m with
    | error e m' => exact herror e m' hrun
    | ok target m' =>
      have hgo := hok target m' hrun steps (Nat.lt_succ_self _)
      cases target with
      | none => exact hgo
      | some t => exact hgo

/-- Operations **in a row**. -/
theorem LeadsFor.all {os : List Op} (h : p.HasAt n os) (hfirst : first ≤ n)
    (hlast : n + os.length ≤ last)
    (hok : ∀ m', (Exec.all os).run m = .ok () m' →
      ∀ steps' ≤ steps, p.LeadsFor first last E Q steps' (n + os.length) m')
    (herror : ∀ e m', (Exec.all os).run m = .error e m' → E e m') :
    p.LeadsFor first last E Q steps n m := by
  induction os generalizing n m steps with
  | nil => exact hok m rfl steps (Nat.le_refl _)
  | cons o os ih =>
    obtain ⟨ho, hos⟩ := h
    rw [List.length_cons] at hlast hok
    have hposition : n + (os.length + 1) = n + 1 + os.length := by omega
    refine .op ho hfirst (by omega) (fun m₁ hone steps₁ hlt => ?_) fun e m₁ hone => ?_
    · refine ih hos (by omega) (by omega) (fun m' hrun steps' hle => ?_) fun e m' hrun => ?_
      · rw [← hposition]
        exact hok m' (by rw [Exec.all, Exec.run_bind_ok hone]; exact hrun) steps' (by omega)
      · exact herror e m' (by rw [Exec.all, Exec.run_bind_ok hone]; exact hrun)
    · exact herror e m₁ (by rw [Exec.all, Exec.run_bind_error hone])

/-- A stretch goes on with **one operation** behind it. -/
theorem Leads.behind {o : Op} (h : p.Leads first n E Q first m) (hi : p.code[n]? = some (.op o))
    (hfirst : first ≤ n) : p.Leads first (n + 1)
      (fun e m' => E e m' ∨ ∃ m₁, Q m₁ ∧ o.execute.run m₁ = .error e m')
      (fun m' => ∃ m₁, Q m₁ ∧ o.execute.run m₁ = .ok () m') first m := by
  intro steps
  refine ((h steps).imp (fun e m' he => .inl he) fun _ hq => hq).seq (Nat.le_succ n) fun steps' _ m₁ hm₁ => ?_
  exact .op hi hfirst (Nat.lt_succ_self n) (fun m' hrun steps'' _ => .done ⟨m₁, hm₁, hrun⟩)
    fun e m' hrun => .inr ⟨m₁, hm₁, hrun⟩

/-- What crosses operations in a row has done them. -/
theorem Crosses.run_all {p : Procedure} {n : Nat} {os : List Op} {m m' : Machine}
    (h : p.Crosses n (n + os.length) m m') (hos : p.HasAt n os) : (Exec.all os).run m = .ok () m' :=
  Leads.crosses (E := fun _ _ => True) (Q := fun m' => (Exec.all os).run m = .ok () m')
    (fun _ => .all hos (Nat.le_refl _) (Nat.le_refl _) (fun _ hrun _ _ => .done hrun) fun _ _ _ => trivial) h

end Procedure

end Stackwright
