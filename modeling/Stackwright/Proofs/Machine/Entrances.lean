import Stackwright.Proofs.Machine.Beneath
import Stackwright.Proofs.Machine.Paths

/-! # Bodies that a run enters

What a program shows to its host is the bodies of methods and constructors that it enters: in which order, with which
arguments, and in which world. A run of some number of steps enters so many of them; from where it is then, it goes on
with the rest, and once it has come to an end it enters no more.

* **`Entrance`** — a body that is entered.
* **`Procedure.entrances p k n m`** — the bodies that a run enters in some number of steps.
* **`Procedure.entrances_add`** — steps are counted on from where a run is.
* **`Procedure.settled`** — nothing more happens behind an end. -/

namespace Stackwright

/-- A **body that is entered**. -/
structure Entrance where
  /-- The operation that runs it. -/
  op : Op
  /-- The arguments that it receives. -/
  args : List Value
  /-- The world that it finds. -/
  world : World

/-- The body that an operation enters on a machine, if it enters one. -/
def Op.entrance? (m : Machine) : Op → Option Entrance
  | .call f =>
    match (do Exec.openReceiver f (← Exec.popMany f.arity) : Exec _).run m with
    | .ok (args, _) m' => some ⟨.call f, args, m'.world⟩
    | .error .. => none
  | .instantiate c =>
    match (Exec.popMany c.params.length).run m with
    | .ok params m' =>
      match (Constructor.fresh c.owner).run m'.world with
      | .ok made w => some ⟨.instantiate c, made :: params, w⟩
      | .error .. => none
    | .error .. => none
  | _ => none

/-- The body that an instruction enters. -/
def Instruction.entrance? (m : Machine) : Instruction Nat → Option Entrance
  | .op o => o.entrance? m
  | .jump _ | .ret => none

/-- An entrance tells **what is received**. -/
theorem Op.entrance?_eq_some_iff {m : Machine} {o : Op} {e : Entrance} :
    o.entrance? m = some e ↔ e.op = o ∧ o.Enters m e.args e.world := by
  obtain ⟨op, args, w⟩ := e
  cases o with
  | call f =>
    rw [entrance?]
    constructor
    · intro h
      split at h
      · rename_i hrun
        cases h
        exact ⟨rfl, .method hrun⟩
      · cases h
    · rintro ⟨rfl, ⟨hrun⟩⟩
      rw [hrun]
  | instantiate c =>
    rw [entrance?]
    constructor
    · intro h
      split at h
      · rename_i hpop
        split at h
        · rename_i hfresh
          cases h
          exact ⟨rfl, .maker hpop hfresh⟩
        · cases h
      · cases h
    · rintro ⟨rfl, henters⟩
      cases henters with
      | maker hpop hfresh =>
        rw [hpop]
        dsimp only
        rw [hfresh]
  | _ =>
    refine ⟨nofun, ?_⟩
    rintro ⟨-, ⟨⟩⟩

/-- Entering a body makes no box. -/
theorem Op.Enters.boxes {m : Machine} {o : Op} {args : List Value} {w : World} (h : o.Enters m args w) :
    w.heap.boxes = m.world.heap.boxes := by
  have hpopped : ∀ {n : Nat} {vs : List Value} {m' : Machine}, (Exec.popMany n).run m = .ok vs m' →
      m'.world = m.world := by
    intro n vs m' hpop
    have hstack : m.frame.stack = ([] : List Value).reverse ++ m.frame.stack := rfl
    exact (Exec.append_of_popMany hstack (Nat.zero_le _) hpop).1
  cases h with
  | method h =>
    rw [Exec.run_bind] at h
    split at h
    · rename_i hpop
      rw [(Exec.quiet_openReceiver _ _).ok h, hpopped hpop]
    · cases h
  | maker hpop hfresh =>
    rw [← hpopped hpop]
    unfold Constructor.fresh at hfresh
    split at hfresh <;> cases hfresh <;> rfl

namespace Procedure

/-- The bodies that a run **enters in some number of steps**, in order. -/
def entrances (p : Procedure) : Nat → Nat → Machine → List Entrance
  | 0, _, _ => []
  | k + 1, n, m =>
    match p.code[n]? with
    | none => []
    | some i =>
      (i.entrance? m).toList ++
        match (i.execute p.signature.ret).run m with
        | .ok .next m => p.entrances k (n + 1) m
        | .ok (.goto target) m => p.entrances k target m
        | .ok (.done _) _ | .error .. => []

end Procedure

/-- Where a run is behind an instruction. -/
def Whereabouts.behind (n : Nat) : EStateM.Result Halt Machine Progress → Whereabouts
  | .ok .next m => .reached (n + 1) m
  | .ok (.goto target) m => .reached target m
  | .ok (.done v) m => .returned v m
  | .error r m => .stopped r m

/-- The run has come to an **end**. -/
def Whereabouts.Ended (w : Whereabouts) : Prop := ∀ n m, w ≠ .reached n m

namespace Procedure

variable {p : Procedure} {i : Instruction Nat} {j k n n' : Nat} {m m' : Machine}

attribute [local simp] whereabouts entrances

theorem whereabouts_one (hi : p.code[n]? = some i) (m : Machine) :
    p.whereabouts 1 n m = .behind n ((i.execute p.signature.ret).run m) := by
  rw [whereabouts, hi]
  dsimp only
  cases (i.execute p.signature.ret).run m with
  | error r m₁ => rfl
  | ok progress m₁ => cases progress <;> rfl

theorem entrances_one (hi : p.code[n]? = some i) (m : Machine) : p.entrances 1 n m = (i.entrance? m).toList := by
  rw [entrances, hi]
  dsimp only
  cases (i.execute p.signature.ret).run m with
  | error r m₁ => exact List.append_nil _
  | ok progress m₁ => cases progress <;> exact List.append_nil _

/-- Bodies that are entered are counted **on from where a run is**. -/
theorem entrances_add (h : p.whereabouts j n m = .reached n' m') (k : Nat) :
    p.entrances (j + k) n m = p.entrances j n m ++ p.entrances k n' m' := by
  induction j generalizing n m with
  | zero =>
    cases h
    rw [Nat.zero_add]
    rfl
  | succ j ih =>
    cases hi : p.code[n]? with
    | none => simp [hi] at h
    | some i =>
      rw [whereabouts, hi] at h
      rw [Nat.succ_add, entrances, entrances, hi]
      dsimp only at h ⊢
      cases hstep : (i.execute p.signature.ret).run m with
      | error r m₁ => simp [hstep] at h
      | ok progress m₁ =>
        rw [hstep] at h
        rw [List.append_assoc]
        cases progress with
        | next => exact congrArg _ (ih h)
        | goto target => exact congrArg _ (ih h)
        | done v => cases h

/-- **Behind an end** nothing more happens. -/
theorem settled (hjk : j ≤ k) (h : (p.whereabouts j n m).Ended) :
    p.whereabouts k n m = p.whereabouts j n m ∧ p.entrances k n m = p.entrances j n m := by
  induction j generalizing k n m with
  | zero => exact absurd rfl (h n m)
  | succ j ih =>
    obtain ⟨k, rfl⟩ := Nat.exists_eq_add_of_le' (Nat.lt_of_lt_of_le (Nat.succ_pos j) hjk)
    cases hi : p.code[n]? with
    | none => simp [hi]
    | some i =>
      rw [whereabouts, hi] at h
      rw [whereabouts, whereabouts, entrances, entrances, hi]
      dsimp only at h ⊢
      cases hstep : (i.execute p.signature.ret).run m with
      | error r m₁ => exact ⟨rfl, rfl⟩
      | ok progress m₁ =>
        rw [hstep] at h
        cases progress with
        | next =>
          obtain ⟨hat, hentered⟩ := ih (Nat.le_of_succ_le_succ hjk) h
          exact ⟨hat, congrArg _ hentered⟩
        | goto target =>
          obtain ⟨hat, hentered⟩ := ih (Nat.le_of_succ_le_succ hjk) h
          exact ⟨hat, congrArg _ hentered⟩
        | done v => exact ⟨rfl, rfl⟩

/-- A run along positions takes some number of steps. -/
theorem Along.walks {P : Nat → Prop} {Q : Entrance → Prop} (h : p.Along P n m n' m')
    (hQ : ∀ n, P n → ∀ i, p.code[n]? = some i → ∀ m, ∀ e ∈ i.entrance? m, Q e) :
    ∃ j, p.whereabouts j n m = .reached n' m' ∧ ∀ e ∈ p.entrances j n m, Q e := by
  -- one more step, with what it enters
  have hone : ∀ {n n₁ : Nat} {m m₁ : Machine} {i : Instruction Nat}, P n → p.code[n]? = some i →
      p.whereabouts 1 n m = .reached n₁ m₁ →
      (∃ j, p.whereabouts j n₁ m₁ = .reached n' m' ∧ ∀ e ∈ p.entrances j n₁ m₁, Q e) →
      ∃ j, p.whereabouts j n m = .reached n' m' ∧ ∀ e ∈ p.entrances j n m, Q e := by
    rintro n n₁ m m₁ i hn hi hat ⟨j, hj, hentered⟩
    refine ⟨1 + j, (whereabouts_add hat j).trans hj, fun e he => ?_⟩
    rw [entrances_add hat, List.mem_append, entrances_one hi, Option.mem_toList] at he
    rcases he with he | he
    · exact hQ n hn i hi m e he
    · exact hentered e he
  induction h with
  | here n m => exact ⟨0, rfl, fun e he => absurd he List.not_mem_nil⟩
  | next hn hi hstep _ ih => exact hone hn hi ((whereabouts_one hi _).trans (by rw [hstep]; rfl)) (ih hone)
  | goto hn hi hstep _ ih => exact hone hn hi ((whereabouts_one hi _).trans (by rw [hstep]; rfl)) (ih hone)

end Procedure

end Stackwright
