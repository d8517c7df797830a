import Stackwright.Proofs.Emission.Recording

/-! # Operations with interludes

A run through operations among reports and dumps does the operations in turn, and between them it does what
acts aside. Whatever it comes to, it comes to by operations that are **played** with such interludes: so a
claim about a call at every level is a claim about its operations, each made wherever an interlude left the
machine.

* **`Op.Played k os m r`** — what operations may come to, with interludes between them.
* **`Procedure.leads_among`** — a run through recorded code plays its operations.
* **`Op.Chain k a os b`** — operations of which each acts aside. -/

namespace Stackwright

/-- What changed aside leaves fewer locals as they were. -/
theorem Machine.Aside.fewer {k k' : Nat} {m m' : Machine} (h : m.Aside k' m') (hk : k ≤ k') : m.Aside k m' :=
  ⟨h.args, h.size, fun i hi => h.locals i (Nat.lt_of_lt_of_le hi hk), h.heap⟩

/-- Another machine with the same stack, changed **aside**: an interlude leaves it. -/
structure Machine.Interlude (k : Nat) (m m' : Machine) : Prop where
  /-- What changed is aside. -/
  aside : m.Aside k m'
  /-- The stack is the same. -/
  stack : m'.frame.stack = m.frame.stack

namespace Machine.Interlude

variable {k : Nat} {m m' m'' : Machine}

theorem refl (k : Nat) (m : Machine) : m.Interlude k m := ⟨.refl k m, rfl⟩

theorem trans (h : m.Interlude k m') (h' : m'.Interlude k m'') : m.Interlude k m'' :=
  ⟨h.aside.trans h'.aside, h'.stack.trans h.stack⟩

end Machine.Interlude

/-- What operations may come to when they are **played** in turn, with interludes. -/
inductive Op.Played (k : Nat) : List Op → Machine → EStateM.Result Halt Machine Unit → Prop
  /-- All are done. -/
  | done {m m' : Machine} (h : m.Interlude k m') : Played k [] m (.ok () m')
  /-- The first is done, and the others follow. -/
  | op {o : Op} {os : List Op} {m m₁ m₂ : Machine} {r : EStateM.Result Halt Machine Unit}
      (h : m.Interlude k m₁) (hrun : o.execute.run m₁ = .ok () m₂) (hrest : Played k os m₂ r) :
      Played k (o :: os) m r
  /-- The first stops. -/
  | stop {o : Op} {os : List Op} {m m₁ m₂ : Machine} {e : Halt} (h : m.Interlude k m₁)
      (hrun : o.execute.run m₁ = .error e m₂) : Played k (o :: os) m (.error e m₂)
  /-- An interlude stops. -/
  | halt {os : List Op} {m m₁ : Machine} {e : Halt} (h : m.Aside k m₁) : Played k os m (.error e m₁)

namespace Op.Played

variable {k : Nat} {os os' : List Op} {m m₁ : Machine} {r : EStateM.Result Halt Machine Unit}

theorem before (hm : m.Interlude k m₁) (h : Played k os m₁ r) : Played k os m r := by
  cases h with
  | done h => exact .done (hm.trans h)
  | op h hrun hrest => exact .op (hm.trans h) hrun hrest
  | stop h hrun => exact .stop (hm.trans h) hrun
  | halt h => exact .halt (hm.aside.trans h)

/-- Interludes that leave more locals as they were. -/
theorem fewer {k' : Nat} (h : Played k' os m r) (hk : k ≤ k') : Played k os m r := by
  have hfewer : ∀ {m₁ m₂ : Machine}, m₁.Interlude k' m₂ → m₁.Interlude k m₂ :=
    fun h => ⟨h.aside.fewer hk, h.stack⟩
  induction h with
  | done h => exact .done (hfewer h)
  | op h hrun _ ih => exact .op (hfewer h) hrun ih
  | stop h hrun => exact .stop (hfewer h) hrun
  | halt h => exact .halt (h.fewer hk)

/-- Rows are played one after the other. -/
theorem split (h : Played k (os ++ os') m r) :
    (∃ m₁, Played k os m (.ok () m₁) ∧ Played k os' m₁ r) ∨
      ∃ e m₁, r = .error e m₁ ∧ Played k os m (.error e m₁) := by
  induction os generalizing m with
  | nil => exact .inl ⟨m, .done (.refl k m), h⟩
  | cons o os ih =>
    cases h with
    | stop h hrun => exact .inr ⟨_, _, rfl, .stop h hrun⟩
    | halt h => exact .inr ⟨_, _, rfl, .halt h⟩
    | op h hrun hrest =>
      rcases ih hrest with ⟨m₁, hfirst, hlast⟩ | ⟨e, m₁, rfl, hstop⟩
      · exact .inl ⟨m₁, .op h hrun hfirst, hlast⟩
      · exact .inr ⟨e, m₁, rfl, .op h hrun hstop⟩

/-- A row that is done is done in parts. -/
theorem split_ok {m' : Machine} (h : Played k (os ++ os') m (.ok () m')) :
    ∃ m₁, Played k os m (.ok () m₁) ∧ Played k os' m₁ (.ok () m') := by
  rcases h.split with h | ⟨e, m₁, hr, -⟩
  · exact h
  · cases hr

/-- One operation that is done. -/
theorem one {o : Op} {m' : Machine} (h : Played k [o] m (.ok () m')) :
    ∃ m₁ m₂, m.Interlude k m₁ ∧ o.execute.run m₁ = .ok () m₂ ∧ m₂.Interlude k m' := by
  cases h with
  | op h hrun hrest =>
    cases hrest with
    | done h' => exact ⟨_, _, h, hrun, h'⟩

end Op.Played

/-- A run through recorded code **plays** its operations. -/
theorem Procedure.leads_among {p : Procedure} {sink : Sink} {k n : Nat} {os : List Op}
    {is : List (Instruction Nat)} (h : Op.Among sink k n os is) (hp : p.Has n is) (m : Machine) :
    p.Leads n (n + is.length) (fun e m' => Op.Played k os m (.error e m'))
      (fun m' => Op.Played k os m (.ok () m')) n m := by
  -- what interrupts the operations changes only aside, so the rest starts from a machine that is as good
  induction h generalizing m with
  | nil n => exact fun steps => .done (.done (.refl k m))
  | @op n o os is _ ih =>
    obtain ⟨ho, hrest⟩ := has_cons.1 hp
    intro steps
    refine .op ho (Nat.le_refl _) (by simp) (fun m₁ hrun steps₁ _ => ?_) fun e m₁ hrun =>
      .stop (.refl k m) hrun
    have hlater := ((ih hrest m₁ steps₁).earlier (Nat.le_succ n)).imp
      (fun e m' h => Op.Played.op (.refl k m) hrun h) fun m' h => Op.Played.op (.refl k m) hrun h
    rwa [List.length_cons, Nat.add_comm is.length, ← Nat.add_assoc]
  | @report n text os is _ ih =>
    obtain ⟨hreport, hrest⟩ := has_append.1 hp
    rw [Op.length_straight] at hrest
    obtain ⟨m₁, hrun, halike⟩ := Exec.run_report sink text m
    have hm : m.Interlude k m₁ := ⟨.of_alike k halike, congrArg Frame.stack halike.frame⟩
    intro steps
    refine .all (has_straight.1 hreport) (Nat.le_refl _) (by simp) (fun m' hrun' steps₁ _ => ?_)
      fun e m' hrun' => ?_
    · rw [hrun] at hrun'
      cases hrun'
      have hlater := ((ih hrest m₁ steps₁).earlier (Nat.le_add_right n 2)).imp
        (fun e m' h => h.before hm) fun m' h => h.before hm
      rwa [List.length_append, Op.length_straight, ← Nat.add_assoc]
    · rw [hrun] at hrun'
      cases hrun'
  | @dump n j t hj os is _ ih =>
    obtain ⟨hdump, hrest⟩ := has_append.1 hp
    intro steps
    rw [List.length_append, ← Nat.add_assoc]
    refine ((leads_dump hj hdump m steps).imp (fun e m' h => Op.Played.halt h) fun _ h => h).seq
      (Nat.le_add_right _ _) fun steps₁ _ m₁ hm₁ => ?_
    have hm : m.Interlude k m₁ := ⟨hm₁.1, hm₁.2⟩
    exact ((ih hrest m₁ steps₁).earlier (Nat.le_add_right _ _)).imp (fun e m' h => h.before hm)
      fun m' h => h.before hm

/-! ## Operations that act aside -/

/-- Operations **of which each acts aside**; together they take `a` operands and leave `b`. -/
inductive Op.Chain (k : Nat) : Nat → List Op → Nat → Prop
  /-- Nothing. -/
  | nil (a : Nat) : Chain k a [] a
  /-- One more operation. -/
  | cons {o : Op} {os : List Op} {a b c : Nat} (ho : o.execute.Acts k a b) (hos : Chain k b os c) :
      Chain k a (o :: os) c

namespace Op.Chain

variable {k a b c : Nat} {os os' : List Op} {m m' : Machine} {e : Halt}

theorem append (h : Chain k a os b) (h' : Chain k b os' c) : Chain k a (os ++ os') c := by
  induction h with
  | nil => exact h'
  | cons ho _ ih => exact .cons ho (ih h')

theorem under (h : Chain k a os b) (c : Nat) : Chain k (a + c) os (b + c) := by
  induction h with
  | nil => exact .nil _
  | cons ho _ ih => exact .cons (ho.under c) ih

/-- What was done when such operations are done is aside. -/
theorem ok (h : Chain k a os b) (hplayed : Played k os m (.ok () m')) {ys rest : List Value}
    (hstack : m.frame.stack = ys ++ rest) (hlength : ys.length = a) :
    m.Aside k m' ∧ ∃ zs, zs.length = b ∧ m'.frame.stack = zs ++ rest := by
  induction h generalizing m ys with
  | nil =>
    cases hplayed with
    | done h => exact ⟨h.aside, ys, hlength, h.stack.trans hstack⟩
  | cons ho _ ih =>
    cases hplayed with
    | op h hrun hrest =>
      obtain ⟨zs, hzs, hstack'⟩ := ho.stack (h.stack.trans hstack) hlength hrun
      obtain ⟨haside, hafter⟩ := ih hrest hstack' hzs
      exact ⟨h.aside.trans ((ho.ok hrun).trans haside), hafter⟩

/-- So it is whatever the operands are. -/
theorem aside (h : Chain k a os b) (hplayed : Played k os m (.ok () m')) : m.Aside k m' := by
  induction h generalizing m with
  | nil =>
    cases hplayed with
    | done h => exact h.aside
  | cons ho _ ih =>
    cases hplayed with
    | op h hrun hrest => exact h.aside.trans ((ho.ok hrun).trans (ih hrest))

/-- What was done when such operations stop is aside. -/
theorem error (h : Chain k a os b) (hplayed : Played k os m (.error e m')) : m.Aside k m' := by
  induction h generalizing m with
  | nil =>
    cases hplayed with
    | halt h => exact h
  | cons ho _ ih =>
    cases hplayed with
    | op h hrun hrest => exact h.aside.trans ((ho.ok hrun).trans (ih hrest))
    | stop h hrun => exact h.aside.trans (ho.error hrun)
    | halt h => exact h

end Op.Chain

namespace Exec

variable (k : Nat)

/-- What stops right away acts aside. -/
theorem acts_fail {α : Type} (f : Fault) (k a b : Nat) : (fail f : Exec α).Acts k a b where
  ok hrun := by cases hrun
  error hrun := by
    cases hrun
    exact .refl _ _
  stack _ _ hrun := by cases hrun

theorem acts_boxFor (t : Ty) (v : Value) (n : Nat) : (boxFor t v).Acts k n n := by
  refine ((quiet_lift quiet_heap).acts k n).bind fun h => ?_
  split
  · exact (quiet_throw _).acts k n
  · split
    · exact (quiet_pure _).acts k n
    · exact (quiet_refuseCast _ _ _).acts k n
  · split
    · split
      · exact acts_allocBox _ _ k n
      · exact (quiet_refuseCast _ _ _).acts k n
    · exact (quiet_refuseCast _ _ _).acts k n

theorem acts_openBox (t : Ty) : (Op.execute (.openBox t)).Acts k 1 1 :=
  (acts_pop k).bind fun v => (acts_boxFor k t v 0).bind fun _ => acts_push k _

theorem acts_checkCast (t : Ty) : (Op.execute (.checkCast t)).Acts k 1 1 := by
  refine (acts_pop k).bind fun v => ((quiet_lift quiet_heap).acts k 0).bind fun h => ?_
  split
  · split
    · exact acts_push k _
    · exact acts_fail _ k 0 1
  · exact acts_push k _

theorem acts_typeOfHandle : (Op.execute (.call Builtin.typeOfHandle)).Acts k 1 1 :=
  acts_call_pure (g := Builtin.typeOfHandle) rfl
    (fun args => Quiet.sparesHeap (quiet_argument args 0 1)) k

end Exec

/-- A conversion acts aside, and leaves one operand in place of one. -/
theorem Conversion.chain_ops (c : Conversion) (k : Nat) : Op.Chain k 1 c.ops 1 := by
  have hload : Op.Chain k 1 [.loadThrough] 1 := .cons (Exec.acts_loadThrough k) (.nil 1)
  cases c with
  | identity => exact .nil 1
  | upcast => exact .nil 1
  | numeric kind => exact .cons (Exec.acts_convert k kind) (.nil 1)
  | openBox t readThrough =>
    refine .cons (Exec.acts_openBox k t) ?_
    split
    · exact hload
    · exact .nil 1
  | box t loadFirst =>
    refine Op.Chain.append (b := 1) ?_ (.cons (Exec.acts_box k t) (.nil 1))
    split
    · exact hload
    · exact .nil 1
  | cast t => exact .cons (Exec.acts_checkCast k t) (.nil 1)

theorem Constant.chain_loadOps (c : Constant) (k : Nat) : Op.Chain k 0 c.loadOps 1 := by
  refine .cons (Exec.acts_push k _) ?_
  cases c with
  | handle t => exact .cons (Exec.acts_typeOfHandle k) (.nil 1)
  | _ => exact .nil 1

namespace Operand

variable {o : Operand} {t : Ty} {f : Method} {r : Option Operand} {os : List Operand} {ts : List Ty}
  {x : List Op}

/-- A load acts aside, and leaves one operand. -/
theorem chain_loadOps (o : Operand) (k : Nat) : Op.Chain k 0 o.loadOps 1 := by
  cases o with
  | constant c => exact c.chain_loadOps k
  | argument a => exact .cons (Exec.acts_loadArg k _) (.nil 1)
  | «variable» l => exact .cons (Exec.acts_loadLocal k _) (.nil 1)

theorem chain_addressOps (o : Operand) (k : Nat) : Op.Chain k 0 o.addressOps 1 := by
  cases o with
  | constant c => exact c.chain_loadOps k
  | argument a =>
    rw [addressOps]
    split
    · exact .cons (Exec.acts_push k _) (.nil 1)
    · exact .cons (Exec.acts_loadArg k _) (.nil 1)
  | «variable» l =>
    rw [addressOps]
    split
    · exact .cons (Exec.acts_push k _) (.nil 1)
    · exact .cons (Exec.acts_loadLocal k _) (.nil 1)

theorem Passed.chain (h : o.Passed t x) (k : Nat) : Op.Chain k 0 x 1 := by
  cases h with
  | null h => exact o.chain_loadOps k
  | converted h hc => exact (o.chain_loadOps k).append (Conversion.chain_ops _ k)

/-- The loads of parameters act aside, and leave one operand for each. -/
theorem PassedInRow.chain (h : PassedInRow os ts x) (k : Nat) : Op.Chain k 0 x os.length := by
  induction h with
  | nil => exact .nil 0
  | @cons o t os ts first rest h _ ih =>
    have hrest := ih.under 1
    rw [Nat.zero_add] at hrest
    exact (h.chain k).append hrest

/-- So does the load of a receiver. -/
theorem Received.chain (h : Received f r x) (k : Nat) : ∃ n ≤ 1, Op.Chain k 0 x n := by
  cases h with
  | none h => exact ⟨0, Nat.zero_le _, .nil 0⟩
  | some hf hc => exact ⟨1, Nat.le_refl _, (chain_addressOps _ k).append (Conversion.chain_ops _ k)⟩

end Operand

end Stackwright
