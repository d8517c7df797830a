import Stackwright.Proofs.Machine.Paths

/-! # Runs in legs

A run through a construct goes through stretches of it, some of them again and again, and in between along
positions. What it comes by is listed as **legs**, each with its stage, and with the machines before and behind
the stretch.

* **`Procedure.Travels p P place n m legs n' m'`** — a run gets from one position to another by legs.
* **`Procedure.Travels.within`** — such a run is within a stretch that everything it comes by is in. -/

namespace Stackwright

/-- A **leg** of a run: it goes through the stretch of a stage. -/
structure Leg (α : Type) where
  /-- Which stretch it goes through. -/
  stage : α
  /-- The machine before it. -/
  before : Machine
  /-- The machine behind it. -/
  behind : Machine

namespace Procedure

/-- A run gets from one position to another **by legs**, and in between along positions. Each stage has a place,
which is a stretch. -/
inductive Travels {α : Type} (p : Procedure) (P : Nat → Prop) (place : α → Nat × Nat) :
    Nat → Machine → List (Leg α) → Nat → Machine → Prop
  /-- There are no more legs. -/
  | out {n n' : Nat} {m m' : Machine} (h : p.Along P n m n' m') : Travels p P place n m [] n' m'
  /-- One leg, and the others. -/
  | leg {a : α} {n n' : Nat} {m e e' m' : Machine} {legs : List (Leg α)} (h : p.Along P n m (place a).1 e)
      (hcross : p.Crosses (place a).1 (place a).2 e e') (hrest : Travels p P place (place a).2 e' legs n' m') :
      Travels p P place n m (⟨a, e, e'⟩ :: legs) n' m'

variable {α : Type} {p : Procedure} {P : Nat → Prop} {place : α → Nat × Nat} {first last n n' n'' : Nat}
  {m m' m'' e e' : Machine} {legs legs' : List (Leg α)} {r : Halt}

theorem Travels.trans (h : p.Travels P place n m legs n' m') (h' : p.Travels P place n' m' legs' n'' m'') :
    p.Travels P place n m (legs ++ legs') n'' m'' := by
  induction h with
  | out h =>
    cases h' with
    | out h' => exact .out (h.trans h')
    | leg h' hcross hrest => exact .leg (h.trans h') hcross hrest
  | leg h hcross _ ih => exact .leg h hcross (ih h')

/-- One leg more, from where its stretch begins. -/
theorem Travels.snoc {a : α} (h : p.Travels P place n m legs (place a).1 e)
    (hcross : p.Crosses (place a).1 (place a).2 e e') :
    p.Travels P place n m (legs ++ [⟨a, e, e'⟩]) (place a).2 e' :=
  h.trans (.leg (.here _ _) hcross (.out (.here _ _)))

/-- Positions more. -/
theorem Travels.along (h : p.Travels P place n m legs n' m') (h' : p.Along P n' m' n'' m'') :
    p.Travels P place n m legs n'' m'' := by
  have hall := h.trans (.out h')
  rwa [List.append_nil] at hall

/-- A run by legs is **within** a stretch that the positions and the places are in. -/
theorem Travels.within (h : p.Travels P place n m legs n' m') (hP : ∀ i, P i → first ≤ i ∧ i < last)
    (hplace : ∀ a, first ≤ (place a).1 ∧ (place a).2 ≤ last) : p.Within first last n m n' m' := by
  induction h with
  | out h => exact h.within hP
  | @leg a _ _ _ _ _ _ _ h hcross _ ih =>
    exact (h.within hP).trans ((hcross.longer (hplace a).1 (hplace a).2).trans ih)

/-- What stops behind a part of a run stops the run. -/
theorem Within.stops (h : p.Within first last first m n e) (h' : p.Stops n n' e r m') (hfirst : first ≤ n)
    (hlast : n' ≤ last) : p.Stops first last m r m' := by
  obtain ⟨i, m₁, instruction, hwithin, hni, hin, hcode, hrun⟩ := h'
  exact ⟨i, m₁, instruction, h.trans (hwithin.longer hfirst hlast), Nat.le_trans hfirst hni,
    Nat.lt_of_lt_of_le hin hlast, hcode, hrun⟩

/-- What is attained behind a part of a run is gone on with, or the run stops. -/
theorem Attains.orStops {S : Prop} {R : Nat → Machine → Prop} (h : p.Attains P S n e R)
    (hbefore : p.Within first last first m n e) (hP : ∀ i, P i → first ≤ i ∧ i < last) :
    (∃ n' m', p.Along P n e n' m' ∧ R n' m') ∨ ∃ r m', p.Stops first last m r m' := by
  rcases h with hgoes | ⟨-, n', m₁, i, r, m', halong, hn', hcode, hrun⟩
  · exact .inl hgoes
  · exact .inr ⟨r, m', n', m₁, i, hbefore.trans (halong.within hP), (hP n' hn').1, (hP n' hn').2, hcode, hrun⟩

/-- An operation is done, or the run stops. -/
theorem crosses_or_stops {o : Op} (hbefore : p.Within first last first m n e) (hfirst : first ≤ n)
    (hlast : n < last) (hcode : p.code[n]? = some (.op o)) :
    (∃ e', o.execute.run e = .ok () e' ∧ p.Crosses n (n + 1) e e') ∨ ∃ r m', p.Stops first last m r m' := by
  cases hrun : o.execute.run e with
  | ok u e' =>
    refine .inl ⟨e', rfl, .next (Nat.le_refl n) (Nat.lt_succ_self n) hcode ?_ (.here _ _)⟩
    rw [Instruction.execute, Exec.run_bind_ok hrun]
    rfl
  | error r e' =>
    refine .inr ⟨r, e', n, e, _, hbefore, hfirst, hlast, hcode, ?_⟩
    rw [Instruction.execute, Exec.run_bind_error hrun]

end Procedure

end Stackwright
