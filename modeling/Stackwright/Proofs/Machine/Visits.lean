import Stackwright.Proofs.Builder.Finish
import Stackwright.Proofs.Machine.Runs

/-! # The positions of a run

A run visits one position after another. In closed code it never leaves the instructions: the last one
is the return, which goes nowhere, and every jump stays inside.

* **`Procedure.Visits p start n m`** — a run from a machine gets to a position with a machine.
* **`Exec.Answers e Q`** — whatever `e` answers has a property. -/

namespace Stackwright

/-! ## Answers -/

namespace Exec

variable {α β : Type} {e : Exec α} {f : α → Exec β} {Q : β → Prop}

/-- Whatever a computation **answers** has a property. -/
def Answers (e : Exec β) (Q : β → Prop) : Prop :=
  ∀ (m m' : Machine) (b : β), e.run m = .ok b m' → Q b

theorem answers_pure {b : β} (h : Q b) : (pure b : Exec β).Answers Q := by
  intro m m' b' hrun
  cases hrun
  exact h

/-- What comes before the answer does not matter. -/
theorem answers_bind (h : ∀ a, (f a).Answers Q) : (e >>= f).Answers Q := by
  intro m m' b hrun
  rw [run_bind] at hrun
  split at hrun
  · exact h _ _ _ b hrun
  · cases hrun

end Exec

/-! ## Where an instruction goes -/

/-- A jump goes to one of its targets, if anywhere. -/
theorem Jump.answers_follow (j : Jump Nat) :
    j.follow.Answers fun o => ∀ t, o = some t → t ∈ j.targets := by
  -- a jump with one target goes there or on
  have hone : ∀ {c : Prop} [Decidable c] {t u : Nat},
      (if c then some t else none) = some u → u ∈ [t] := by
    intro c _ t u h
    split at h <;> simp_all
  have hother : ∀ {c : Prop} [Decidable c] {t u : Nat},
      (if c then none else some t) = some u → u ∈ [t] := by
    intro c _ t u h
    split at h <;> simp_all
  cases j with
  | always t => exact Exec.answers_pure fun u hu => by simp_all [targets]
  | ifTrue t =>
    exact Exec.answers_bind fun v => Exec.answers_bind fun b => Exec.answers_pure fun u hu => hone hu
  | ifFalse t =>
    exact Exec.answers_bind fun v => Exec.answers_bind fun b =>
      Exec.answers_pure fun u hu => hother hu
  | compare c t =>
    exact Exec.answers_bind fun b => Exec.answers_bind fun a => Exec.answers_bind fun r =>
      Exec.answers_pure fun u hu => hone hu
  | switch ts =>
    refine Exec.answers_bind fun i => Exec.answers_pure fun u hu => ?_
    split at hu
    · cases hu
    · exact List.mem_of_getElem? hu

/-- An instruction that goes elsewhere goes to one of its targets. -/
theorem Instruction.answers_execute (ret : Option Ty) (i : Instruction Nat) :
    (i.execute ret).Answers fun onward => ∀ t, onward = .goto t → t ∈ i.targets := by
  cases i with
  | op o => exact Exec.answers_bind fun _ => Exec.answers_pure fun t ht => by cases ht
  | ret => exact Exec.answers_bind fun _ => Exec.answers_pure fun t ht => by cases ht
  | jump j =>
    intro m m' onward hrun
    simp only [execute, Exec.run_bind] at hrun
    split at hrun
    · rename_i target m₁ hfollow
      have htarget := j.answers_follow m m₁ target hfollow
      cases target with
      | none =>
        cases hrun
        intro t ht
        cases ht
      | some t =>
        cases hrun
        intro u hu
        cases hu
        exact htarget _ rfl
    · cases hrun

/-- The return ends the run. -/
theorem Instruction.answers_ret (ret : Option Ty) :
    (Instruction.ret.execute ret).Answers fun onward => ∃ v, onward = .done v :=
  Exec.answers_bind fun v => Exec.answers_pure ⟨v, rfl⟩

/-- Only the return ends a run. -/
theorem Instruction.eq_ret_of_done {ret : Option Ty} {i : Instruction Nat} {m m' : Machine} {v : Value}
    (h : (i.execute ret).run m = .ok (.done v) m') : i = .ret := by
  have hop : ∀ o : Op, ((Instruction.op o).execute ret).Answers fun onward => onward ≠ .done v :=
    fun o => Exec.answers_bind fun _ => Exec.answers_pure fun h => by cases h
  have hjump : ∀ j : Jump Nat, ((Instruction.jump j).execute ret).Answers fun onward => onward ≠ .done v := by
    intro j
    refine Exec.answers_bind fun target => ?_
    cases target with
    | none => exact Exec.answers_pure fun h => by cases h
    | some t => exact Exec.answers_pure fun h => by cases h
  cases i with
  | op o => exact absurd rfl (hop o m m' _ h)
  | jump j => exact absurd rfl (hjump j m m' _ h)
  | ret => rfl

/-! ## Visits -/

namespace Procedure

variable {p : Procedure} {start m m' : Machine} {n fuel : Nat} {i : Instruction Nat} {v : Value}

/-- A run of a procedure **visits** a position. -/
inductive Visits (p : Procedure) (start : Machine) : Nat → Machine → Prop
  /-- Every run begins at the first position. -/
  | start : Visits p start 0 start
  /-- An instruction goes on with the next one. -/
  | next {n : Nat} {m m' : Machine} {i : Instruction Nat} (h : Visits p start n m)
      (hi : p.code[n]? = some i) (hstep : (i.execute p.signature.ret).run m = .ok .next m') :
      Visits p start (n + 1) m'
  /-- A jump goes on elsewhere. -/
  | goto {n target : Nat} {m m' : Machine} {i : Instruction Nat} (h : Visits p start n m)
      (hi : p.code[n]? = some i)
      (hstep : (i.execute p.signature.ret).run m = .ok (.goto target) m') :
      Visits p start target m'

/-- A run of closed code **stays inside** its instructions. -/
theorem Closed.inside (hp : p.Closed) (h : p.Visits start n m) : n < p.code.size := by
  have hlast := hp.last
  rw [Array.back?_eq_getElem?] at hlast
  cases h with
  | start => exact Nat.lt_of_le_of_lt (Nat.zero_le _) (Array.getElem?_eq_some_iff.1 hlast).1
  | @next n m₀ _ i _ hi hstep =>
    have hn : n < p.code.size := (Array.getElem?_eq_some_iff.1 hi).1
    -- the last instruction does not go on
    have hne : n ≠ p.code.size - 1 := by
      rintro rfl
      rw [hlast] at hi
      cases hi
      obtain ⟨v, hv⟩ := Instruction.answers_ret _ _ _ _ hstep
      cases hv
    omega
  | @goto n _ _ _ i _ hi hstep =>
    exact hp.targets i (Array.mem_of_getElem? hi) _ (i.answers_execute _ _ _ _ hstep _ rfl)

/-- A run of closed code that ends does so by a return that it visits, whatever the arguments and the
world: it never goes past the last instruction. -/
theorem Closed.returns (hp : p.Closed) (hvisit : p.Visits start n m)
    (h : p.runFrom fuel n m = .ok v m') :
    ∃ k m₁, p.Visits start k m₁ ∧ p.code[k]? = some .ret ∧
      (Exec.result p.signature.ret).run m₁ = .ok v m' := by
  -- a closed procedure never runs out of its code, so a result comes from a return
  induction fuel generalizing n m with
  | zero => cases h
  | succ fuel ih =>
    obtain ⟨i, hi⟩ : ∃ i, p.code[n]? = some i :=
      ⟨_, Array.getElem?_eq_getElem (hp.inside hvisit)⟩
    rw [runFrom, hi] at h
    dsimp only at h
    cases hstep : (i.execute p.signature.ret).run m with
    | error e m₁ => simp [hstep] at h
    | ok onward m₁ =>
      rw [hstep] at h
      cases onward with
      | next => exact ih (.next hvisit hi hstep) h
      | goto t => exact ih (.goto hvisit hi hstep) h
      | done w =>
        cases h
        have hret := Instruction.eq_ret_of_done hstep
        rw [hret] at hi hstep
        refine ⟨n, m, hvisit, hi, ?_⟩
        rw [Instruction.execute, Exec.run_bind] at hstep
        split at hstep
        · rename_i r m₂ hr
          cases hstep
          exact hr
        · cases hstep

end Procedure

end Stackwright
