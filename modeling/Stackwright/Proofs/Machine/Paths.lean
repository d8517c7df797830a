import Stackwright.Proofs.Machine.Stretches

/-! # Paths through code

Where a run goes is told by the positions that it passes. A run along the positions outside of a body does
nothing of the body; a stretch that only reports is slid through, and nothing but what is kept for a
reader is different at its end.

* **`Procedure.Along p P n m n' m'`** — a run gets from one position to another along positions of `P`.
* **`Procedure.Slides p n n'`** — the code between two positions does nothing but report.
* **`Procedure.Attains p P S n m R`** — a run gets to where `R` holds, or it stops on the way; and it stops
  only if `S` does not hold. -/

namespace Stackwright

/-- Machines that are alike are alike with another stack. -/
theorem Machine.Alike.withStack {m m' : Machine} (h : m.Alike m') (stack : List Value) :
    (m.withStack stack).Alike (m'.withStack stack) where
  frame := by simp [Machine.withStack, h.frame]
  heap := h.heap

/-- What a machine that is alike has on the stack. -/
theorem Machine.Alike.stack {m m' : Machine} (h : m.Alike m') : m'.frame.stack = m.frame.stack := by
  rw [h.frame]

/-- A jump on a comparison takes its two operands and asks whether it holds of them. -/
theorem Jump.run_compare {m : Machine} {x y : Value} {rest : List Value} {c : Comparison} {target : Nat}
    {r : Bool} (hstack : m.frame.stack = y :: x :: rest)
    (hholds : (Host.holds c x y).run m.world = .ok r m.world) :
    (Jump.compare c target).follow.run m = .ok (if r then some target else none) (m.withStack rest) := by
  have hlift : (liftM (Host.holds c x y) : Exec Bool).run (m.withStack rest) =
      .ok r (m.withStack rest) := by
    rw [Exec.run_lift, Machine.world_withStack, hholds]
    rfl
  rw [Jump.follow, Exec.run_bind_ok (Exec.run_pop hstack), Exec.run_bind_ok (Exec.run_pop rfl)]
  exact Exec.run_bind_ok hlift

namespace Procedure

/-- A run gets from one position to another **along** positions: each instruction that it does on the way
is at one of them. -/
inductive Along (p : Procedure) (P : Nat → Prop) : Nat → Machine → Nat → Machine → Prop
  /-- It is there. -/
  | here (n : Nat) (m : Machine) : Along p P n m n m
  /-- An instruction goes on with the next one. -/
  | next {n n' : Nat} {m m₁ m' : Machine} {i : Instruction Nat} (hP : P n) (hi : p.code[n]? = some i)
      (hstep : (i.execute p.signature.ret).run m = .ok .next m₁)
      (h : Along p P (n + 1) m₁ n' m') : Along p P n m n' m'
  /-- A jump goes on elsewhere. -/
  | goto {n target n' : Nat} {m m₁ m' : Machine} {i : Instruction Nat} (hP : P n)
      (hi : p.code[n]? = some i) (hstep : (i.execute p.signature.ret).run m = .ok (.goto target) m₁)
      (h : Along p P target m₁ n' m') : Along p P n m n' m'

variable {p : Procedure} {P Q : Nat → Prop} {first last n n' n'' : Nat} {m m' m'' : Machine}

theorem Along.trans (h : p.Along P n m n' m') (h' : p.Along P n' m' n'' m'') :
    p.Along P n m n'' m'' := by
  induction h with
  | here => exact h'
  | next hP hi hstep _ ih => exact .next hP hi hstep (ih h')
  | goto hP hi hstep _ ih => exact .goto hP hi hstep (ih h')

theorem Along.imp (h : p.Along P n m n' m') (hPQ : ∀ i, P i → Q i) : p.Along Q n m n' m' := by
  induction h with
  | here => exact .here _ _
  | next hP hi hstep _ ih => exact .next (hPQ _ hP) hi hstep ih
  | goto hP hi hstep _ ih => exact .goto (hPQ _ hP) hi hstep ih

/-- A run within a stretch is along its positions. -/
theorem Within.along (h : p.Within first last n m n' m') (hP : ∀ i, first ≤ i → i < last → P i) :
    p.Along P n m n' m' := by
  induction h with
  | here => exact .here _ _
  | next hfirst hlast hi hstep _ ih => exact .next (hP _ hfirst hlast) hi hstep ih
  | goto hfirst hlast hi hstep _ ih => exact .goto (hP _ hfirst hlast) hi hstep ih

/-- A run along positions of a stretch is within it. -/
theorem Along.within (h : p.Along P n m n' m') (hP : ∀ i, P i → first ≤ i ∧ i < last) :
    p.Within first last n m n' m' := by
  induction h with
  | here => exact .here _ _
  | next h hi hstep _ ih => exact .next (hP _ h).1 (hP _ h).2 hi hstep ih
  | goto h hi hstep _ ih => exact .goto (hP _ h).1 (hP _ h).2 hi hstep ih

/-- A jump goes on where it leads, or else behind it. -/
theorem Along.jump {j : Jump Nat} {target : Option Nat} {m₁ : Machine} (hP : P n)
    (hi : p.code[n]? = some (.jump j)) (hrun : j.follow.run m = .ok target m₁)
    (h : p.Along P (target.getD (n + 1)) m₁ n' m') : p.Along P n m n' m' := by
  cases target with
  | some t =>
    have hstep : ((Instruction.jump j).execute p.signature.ret).run m = .ok (.goto t) m₁ := by
      rw [Instruction.execute, Exec.run_bind_ok hrun]
      rfl
    exact .goto hP hi hstep h
  | none =>
    have hstep : ((Instruction.jump j).execute p.signature.ret).run m = .ok .next m₁ := by
      rw [Instruction.execute, Exec.run_bind_ok hrun]
      rfl
    exact .next hP hi hstep h

/-- A jump that is always taken. -/
theorem Along.always {target : Nat} (hP : P n) (hi : p.code[n]? = some (.jump (.always target)))
    (h : p.Along P target m n' m') : p.Along P n m n' m' := .jump hP hi rfl h

/-! ## Code that only reports -/

/-- The code between two positions **does nothing but report**. -/
def Slides (p : Procedure) (n n' : Nat) : Prop := ∀ m, ∃ m', p.Crosses n n' m m' ∧ m.Alike m'

theorem Slides.refl (p : Procedure) (n : Nat) : p.Slides n n := fun m => ⟨m, .here _ _, .refl m⟩

theorem Slides.trans (h : p.Slides n n') (h' : p.Slides n' n'') (hn : n ≤ n') (hn' : n' ≤ n'') :
    p.Slides n n'' := by
  intro m
  obtain ⟨m₁, hfirst, halike⟩ := h m
  obtain ⟨m₂, hlast, halike'⟩ := h' m₁
  exact ⟨m₂, (hfirst.longer (Nat.le_refl _) hn').trans (hlast.longer hn (Nat.le_refl _)),
    halike.trans halike'⟩

/-- Code that only reports, as part of a path. -/
theorem Slides.along (h : p.Slides n n') (hP : ∀ i, n ≤ i → i < n' → P i) (m : Machine) :
    ∃ m', p.Along P n m n' m' ∧ m.Alike m' :=
  let ⟨m', hcross, halike⟩ := h m
  ⟨m', hcross.along hP, halike⟩

/-! ## Runs that come to an end -/

/-- A run from a position **attains** `R` along positions of `P`, or it stops on the way; it stops only where
`S` does not hold. -/
def Attains (p : Procedure) (P : Nat → Prop) (S : Prop) (n : Nat) (m : Machine)
    (R : Nat → Machine → Prop) : Prop :=
  (∃ n' m', p.Along P n m n' m' ∧ R n' m') ∨
    ¬ S ∧ ∃ n' m₁ i e m', p.Along P n m n' m₁ ∧ P n' ∧ p.code[n']? = some i ∧
      (i.execute p.signature.ret).run m₁ = .error e m'

variable {S S' : Prop} {R R' : Nat → Machine → Prop} {os : List Op}

/-- It is there. -/
theorem Attains.here (h : R n m) : p.Attains P S n m R := .inl ⟨n, m, .here n m, h⟩

/-- What a run along positions goes on with. -/
theorem Along.attains (h : p.Along P n m n' m') (h' : p.Attains P S n' m' R) : p.Attains P S n m R := by
  rcases h' with ⟨n₁, m₁, halong, hr⟩ | ⟨hs, n₁, m₁, i, e, m₂, halong, hrest⟩
  · exact .inl ⟨n₁, m₁, h.trans halong, hr⟩
  · exact .inr ⟨hs, n₁, m₁, i, e, m₂, h.trans halong, hrest⟩

/-- What is attained goes on. -/
theorem Attains.bind (h : p.Attains P S n m R) (h' : ∀ n' m', R n' m' → p.Attains P S n' m' R') :
    p.Attains P S n m R' := by
  rcases h with ⟨n₁, m₁, halong, hr⟩ | hstop
  · exact halong.attains (h' n₁ m₁ hr)
  · exact .inr hstop

theorem Attains.imp (h : p.Attains P S n m R) (hP : ∀ i, P i → Q i) (hS : S' → S)
    (hR : ∀ n' m', R n' m' → R' n' m') : p.Attains Q S' n m R' := by
  rcases h with ⟨n₁, m₁, halong, hr⟩ | ⟨hs, n₁, m₁, i, e, m₂, halong, hn₁, hrest⟩
  · exact .inl ⟨n₁, m₁, halong.imp hP, hR _ _ hr⟩
  · exact .inr ⟨fun hs' => hs (hS hs'), n₁, m₁, i, e, m₂, halong.imp hP, hP _ hn₁, hrest⟩

/-- Where a run may not stop it attains. -/
theorem Attains.along (h : p.Attains P S n m R) (hS : S) : ∃ n' m', p.Along P n m n' m' ∧ R n' m' :=
  h.resolve_right fun hstop => hstop.1 hS

/-- One **operation**. -/
theorem Attains.op {o : Op} (hP : P n) (hi : p.code[n]? = some (.op o))
    (hok : ∀ m', o.execute.run m = .ok () m' → p.Attains P S (n + 1) m' R)
    (hrun : S → ∃ m', o.execute.run m = .ok () m') : p.Attains P S n m R := by
  cases ho : o.execute.run m with
  | ok u m' =>
    have hstep : ((Instruction.op o).execute p.signature.ret).run m = .ok .next m' := by
      rw [Instruction.execute, Exec.run_bind_ok ho]
      rfl
    exact (Along.next hP hi hstep (.here _ _)).attains (hok m' ho)
  | error e m' =>
    have hstep : ((Instruction.op o).execute p.signature.ret).run m = .error e m' := by
      rw [Instruction.execute, Exec.run_bind_error ho]
    refine .inr ⟨fun hs => ?_, n, m, _, e, m', .here n m, hP, hi, hstep⟩
    obtain ⟨m₁, hm₁⟩ := hrun hs
    cases hm₁.symm.trans ho

/-- Operations **in a row**. -/
theorem Attains.all (h : p.HasAt n os) (hP : ∀ i, n ≤ i → i < n + os.length → P i)
    (hok : ∀ m', (Exec.all os).run m = .ok () m' → p.Attains P S (n + os.length) m' R)
    (hrun : S → ∃ m', (Exec.all os).run m = .ok () m') : p.Attains P S n m R := by
  induction os generalizing n m with
  | nil => exact hok m rfl
  | cons o os ih =>
    obtain ⟨ho, hos⟩ := h
    rw [List.length_cons] at hP hok
    have hposition : n + (os.length + 1) = n + 1 + os.length := by omega
    rw [hposition] at hP hok
    refine .op (hP n (Nat.le_refl n) (by omega)) ho (fun m₁ hone => ?_) fun hs => ?_
    · refine ih hos (fun i hi hi' => hP i (by omega) hi') (fun m' hall => hok m' ?_) fun hs => ?_
      · rw [Exec.all, Exec.run_bind_ok hone]
        exact hall
      · obtain ⟨m', hall⟩ := hrun hs
        rw [Exec.all, Exec.run_bind_ok hone] at hall
        exact ⟨m', hall⟩
    · obtain ⟨m', hall⟩ := hrun hs
      rw [Exec.all, Exec.run_bind] at hall
      split at hall
      · rename_i m₁ hone
        exact ⟨m₁, hone⟩
      · cases hall

/-- Operations in a row of which is known what they do. -/
theorem Attains.done (h : p.HasAt n os) (hP : ∀ i, n ≤ i → i < n + os.length → P i)
    (hrun : (Exec.all os).run m = .ok () m') (h' : p.Attains P S (n + os.length) m' R) :
    p.Attains P S n m R := by
  refine .all h hP (fun m₁ hm₁ => ?_) fun _ => ⟨m', hrun⟩
  cases hm₁.symm.trans hrun
  exact h'

/-- Where no position follows, a run stays. -/
theorem Along.stay {p : Procedure} {P : Nat → Prop} {n n' : Nat} {m m' : Machine} (h : p.Along P n m n' m')
    (hn : ¬ P n) : n' = n ∧ m' = m := by
  cases h with
  | here => exact ⟨rfl, rfl⟩
  | next hP => exact absurd hP hn
  | goto hP => exact absurd hP hn

/-- What goes on from a jump goes on from where that leads. -/
theorem Along.past_jump {p : Procedure} {P : Nat → Prop} {n n' : Nat} {m m₁ m' : Machine} {j : Jump Nat}
    {target : Option Nat} (h : p.Along P n m n' m') (hne : n' ≠ n) (hi : p.code[n]? = some (.jump j))
    (hrun : j.follow.run m = .ok target m₁) : p.Along P (target.getD (n + 1)) m₁ n' m' := by
  have hstep : ((Instruction.jump j).execute p.signature.ret).run m =
      .ok (match target with | some t => .goto t | none => .next) m₁ := by
    rw [Instruction.execute, Exec.run_bind_ok hrun]
    cases target <;> rfl
  cases h with
  | here => exact absurd rfl hne
  | next _ hi' hstep' hrest =>
    cases hi.symm.trans hi'
    cases target <;> cases hstep.symm.trans hstep'
    exact hrest
  | goto _ hi' hstep' hrest =>
    cases hi.symm.trans hi'
    cases target <;> cases hstep.symm.trans hstep'
    exact hrest

/-- A jump of which is known where it goes to. -/
theorem Attains.taken {j : Jump Nat} {target : Option Nat} (hP : P n) (hi : p.code[n]? = some (.jump j))
    (hrun : j.follow.run m = .ok target m') (hn : target.getD (n + 1) = n') (h' : p.Attains P S n' m' R) :
    p.Attains P S n m R := by
  subst hn
  exact (Along.jump hP hi hrun (.here _ _)).attains h'

/-- One **jump**. -/
theorem Attains.jump {j : Jump Nat} (hP : P n) (hi : p.code[n]? = some (.jump j))
    (hok : ∀ target m', j.follow.run m = .ok target m' → p.Attains P S (target.getD (n + 1)) m' R)
    (hrun : S → ∃ target m', j.follow.run m = .ok target m') : p.Attains P S n m R := by
  cases hj : j.follow.run m with
  | ok target m' => exact (Along.jump hP hi hj (.here _ _)).attains (hok target m' hj)
  | error e m' =>
    have hstep : ((Instruction.jump j).execute p.signature.ret).run m = .error e m' := by
      rw [Instruction.execute, Exec.run_bind_error hj]
    refine .inr ⟨fun hs => ?_, n, m, _, e, m', .here n m, hP, hi, hstep⟩
    obtain ⟨target, m₁, hm₁⟩ := hrun hs
    cases hm₁.symm.trans hj

/-- **Rounds.** From the test of a loop a run attains `R` if it does so once there are no rounds left, and
each round comes back to the test. -/
theorem Attains.rounds {test : Nat} {Head : Nat → Machine → Prop} {rounds : Nat}
    (hround : ∀ i < rounds, ∀ m, Head i m →
      p.Attains P S test m fun n' m' => n' = test ∧ Head (i + 1) m')
    (hlast : ∀ m, Head rounds m → p.Attains P S test m R) {i : Nat} (hi : i ≤ rounds) (hm : Head i m) :
    p.Attains P S test m R := by
  induction hleft : rounds - i generalizing i m with
  | zero =>
    obtain rfl : i = rounds := by omega
    exact hlast m hm
  | succ left ih =>
    refine (hround i (by omega) m hm).bind ?_
    rintro n' m₁ ⟨rfl, hm₁⟩
    exact ih (by omega) hm₁ (by omega)

end Procedure

end Stackwright
