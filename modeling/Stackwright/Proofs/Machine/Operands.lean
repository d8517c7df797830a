import Stackwright.Proofs.Machine.Calling

/-! # What instructions rest on

An instruction takes its operands off the top of the stack and leaves its results there. What lies beneath
them it neither reads nor moves: with more values beneath its stack it does what it does without, and those
values are beneath the stack afterwards. Only a lack of operands tells the two apart, since the values beneath
would be taken for them.

* **`Machine.above m below`** — a machine with more values beneath its stack.
* **`Exec.Rests a b e`** — `e` rests on `a` operands, in place of which it leaves `b` results.
* **`Instruction.operands`**, **`Instruction.results`** — how many of them each instruction has.
* **`Instruction.rests_execute`** — an instruction rests on its operands. -/

namespace Stackwright

/-! ## Values beneath -/

/-- A machine with **more values beneath** its stack. -/
def Machine.above (m : Machine) (below : List Value) : Machine := m.withStack (m.frame.stack ++ below)

/-- An outcome with more values beneath the stack. -/
def Exec.outcomeAbove {α : Type} (below : List Value) : EStateM.Result Halt Machine α → EStateM.Result Halt Machine α
  | .ok a m => .ok a (m.above below)
  | .error r m => .error r (m.above below)

namespace Machine

variable (m : Machine) (below : List Value)

@[simp] theorem stack_above : (m.above below).frame.stack = m.frame.stack ++ below := rfl

@[simp] theorem args_above : (m.above below).frame.args = m.frame.args := rfl

@[simp] theorem locals_above : (m.above below).frame.locals = m.frame.locals := rfl

@[simp] theorem world_above : (m.above below).world = m.world := rfl

end Machine

namespace Exec

variable {α β : Type} {e : Exec α} {f : α → Exec β} {a b c a' b' k : Nat}

/-! ## What rests on operands -/

/-- A computation **rests** on `a` operands, in place of which it leaves `b` results: unless it lacks one of
them, it does with more values beneath the stack what it does without. -/
structure Rests (a b : Nat) (e : Exec α) : Prop where
  /-- Values beneath the stack make no difference, or an operand was lacking. -/
  above : ∀ (m : Machine) (below : List Value), e.run (m.above below) = outcomeAbove below (e.run m) ∨
    m.frame.stack.length < a ∧ ∃ m', e.run m = .error (.fault .stackUnderflow) m'
  /-- The results are in place of the operands. -/
  height : ∀ {m m' : Machine} {x : α}, e.run m = .ok x m' → m.frame.stack.length + b = m'.frame.stack.length + a

/-- What rests on operands also rests on them and some that it leaves. -/
theorem Rests.mono (h : e.Rests a b) (ha : a ≤ a') (hb : b' + a = b + a') : e.Rests a' b' where
  above m below := (h.above m below).imp id fun ⟨hlack, hstop⟩ => ⟨Nat.lt_of_lt_of_le hlack ha, hstop⟩
  height hrun := by
    have := h.height hrun
    omega

/-- What is left by the first is what the second rests on. -/
theorem Rests.bind (he : e.Rests a b) (hf : ∀ x, (f x).Rests b c) : (e >>= f).Rests a c := by
  constructor
  · intro m below
    rcases he.above m below with habove | ⟨hlack, m', hstop⟩
    · rw [run_bind, run_bind, habove]
      cases hrun : e.run m with
      | error r m₁ => exact .inl rfl
      | ok x m₁ =>
        refine ((hf x).above m₁ below).imp id fun ⟨hlack, hstop⟩ => ⟨?_, hstop⟩
        -- the second lacks no more than the first did not leave
        have := he.height hrun
        omega
    · exact .inr ⟨hlack, m', run_bind_error hstop⟩
  · intro m m' y hrun
    rw [run_bind] at hrun
    split at hrun
    · rename_i x m₁ hfirst
      have := he.height hfirst
      have := (hf x).height hrun
      omega
    · cases hrun

/-- With all its operands there, a computation does above any values what it does without them. -/
theorem Rests.run_above (h : e.Rests a b) {m : Machine} (hm : a ≤ m.frame.stack.length) (below : List Value) :
    e.run (m.above below) = outcomeAbove below (e.run m) :=
  (h.above m below).resolve_right fun ⟨hlack, _⟩ => Nat.not_lt.2 hm hlack

/-- So does a computation that does not stop for want of one. -/
theorem Rests.run_above_of_ne (h : e.Rests a b) {m : Machine}
    (hm : ∀ m', e.run m ≠ .error (.fault .stackUnderflow) m') (below : List Value) :
    e.run (m.above below) = outcomeAbove below (e.run m) :=
  (h.above m below).resolve_right fun ⟨_, m', hstop⟩ => hm m' hstop

theorem rests_pure (x : α) : (pure x : Exec α).Rests k k where
  above _ _ := .inl rfl
  height hrun := by cases hrun; rfl

/-- What stops leaves nothing. -/
theorem rests_fail (g : Fault) : (fail g : Exec α).Rests a b where
  above _ _ := .inl rfl
  height hrun := by cases hrun

/-- A computation of the world does not see the stack. -/
theorem rests_lift (w : Host α) : (liftM w : Exec α).Rests k k where
  above m below := by
    rw [run_lift, run_lift, m.world_above below]
    cases w.run m.world <;> exact .inl rfl
  height {m m' x} hrun := by
    rw [run_lift] at hrun
    split at hrun <;> cases hrun
    rfl

theorem rests_push (v : Value) : (push v).Rests k (k + 1) where
  above _ _ := .inl rfl
  height {m m' x} hrun := by
    cases hrun
    simp only [List.length_cons]
    omega

theorem rests_pop : pop.Rests (k + 1) k where
  above m below := by
    obtain ⟨⟨args, locals, stack⟩, world⟩ := m
    cases stack with
    | nil => exact .inr ⟨Nat.succ_pos k, _, rfl⟩
    | cons v rest => exact .inl rfl
  height {m m' x} hrun := by
    obtain ⟨⟨args, locals, stack⟩, world⟩ := m
    cases stack with
    | nil => cases hrun
    | cons v rest =>
      cases hrun
      show rest.length + 1 + k = rest.length + (k + 1)
      omega

theorem rests_popMany (n : Nat) : (popMany n).Rests (n + k) k where
  above m below := by
    rcases Nat.lt_or_ge m.frame.stack.length n with hlack | henough
    · exact .inr ⟨Nat.lt_of_lt_of_le hlack (Nat.le_add_right n k), m, run_popMany_short hlack⟩
    · obtain ⟨vs, rest, hstack, rfl⟩ := exists_operands henough
      have hstack' : (m.above below).frame.stack = vs.reverse ++ (rest ++ below) := by
        rw [Machine.stack_above, hstack, List.append_assoc]
      exact .inl (by rw [run_popMany hstack, run_popMany hstack']; rfl)
  height {m m' x} hrun := by
    rcases Nat.lt_or_ge m.frame.stack.length n with hlack | henough
    · rw [run_popMany_short hlack] at hrun
      cases hrun
    · obtain ⟨vs, rest, hstack, rfl⟩ := exists_operands henough
      rw [run_popMany hstack] at hrun
      cases hrun
      simp only [hstack, Machine.stack_withStack, List.length_append, List.length_reverse]
      omega

theorem rests_top : top.Rests (k + 1) (k + 1) where
  above m below := by
    obtain ⟨⟨args, locals, stack⟩, world⟩ := m
    cases stack with
    | nil => exact .inr ⟨Nat.succ_pos k, _, rfl⟩
    | cons v rest => exact .inl rfl
  height {m m' x} hrun := by
    obtain ⟨⟨args, locals, stack⟩, world⟩ := m
    cases stack with
    | nil => cases hrun
    | cons v rest => cases hrun; rfl

/-! ## Slots and locations -/

/-- What reads the machine, and not its stack, goes on alike. -/
theorem rests_read {g : Machine → Exec α} (hg : ∀ m, (g m).Rests k k)
    (hsame : ∀ m below, g (Machine.above m below) = g m) : ((get : Exec Machine) >>= g).Rests k k where
  above m below := by
    rw [run_bind, run_bind, run_get, run_get]
    dsimp only
    rw [hsame]
    exact (hg m).above m below
  height {m m' x} hrun := (hg m).height hrun

theorem rests_slotAt (slots : Array Value) (i : Nat) : (slotAt slots i).Rests k k := by
  unfold slotAt
  split
  · exact rests_pure _
  · exact rests_fail _

theorem rests_checkSlot (slots : Array Value) (i : Nat) : (checkSlot slots i).Rests k k := by
  unfold checkSlot
  split
  · exact rests_pure _
  · exact rests_fail _

theorem rests_getArg (i : Nat) : (getArg i).Rests k k := rests_read (fun _ => rests_slotAt _ i) fun _ _ => rfl

theorem rests_getLocal (i : Nat) : (getLocal i).Rests k k := rests_read (fun _ => rests_slotAt _ i) fun _ _ => rfl

theorem rests_setArg (i : Nat) (v : Value) : (setArg i v).Rests k k :=
  rests_read (fun _ => (rests_checkSlot _ i).bind fun _ => ⟨fun _ _ => .inl rfl, fun hrun => by cases hrun; rfl⟩)
    fun _ _ => rfl

theorem rests_setLocal (i : Nat) (v : Value) : (setLocal i v).Rests k k :=
  rests_read (fun _ => (rests_checkSlot _ i).bind fun _ => ⟨fun _ _ => .inl rfl, fun hrun => by cases hrun; rfl⟩)
    fun _ _ => rfl

theorem rests_load (l : Location) : (load l).Rests k k := by
  cases l with
  | argument i => exact rests_getArg i
  | «variable» i => exact rests_getLocal i
  | element a i => exact (rests_lift _).bind fun _ => rests_lift _
  | boxed b => exact (rests_lift _).bind fun _ => rests_pure _

theorem rests_store (l : Location) (v : Value) : (store l v).Rests k k := by
  cases l with
  | argument i => exact rests_setArg i v
  | «variable» i => exact rests_setLocal i v
  | element a i => exact rests_lift _
  | boxed b => exact rests_lift _

theorem rests_readThrough (v : Value) : (readThrough v).Rests k k := by
  cases v with
  | address l => exact rests_load l
  | _ => exact rests_pure _

/-! ## Operands -/

theorem rests_refuseCast (found : Option Ty) (v : Value) (target : Ty) :
    (refuseCast found v target : Exec α).Rests a b := by
  unfold refuseCast
  cases found with
  | some t => exact (rests_pure _).bind fun _ => rests_fail _
  | none => exact (rests_lift _).bind fun _ => rests_fail _

theorem rests_popIndex : popIndex.Rests (k + 1) k := rests_pop.bind fun _ => rests_lift _

theorem rests_popArray : popArray.Rests (k + 1) k := by
  refine rests_pop.bind fun v => ?_
  split
  · exact rests_pure _
  · exact rests_fail _
  · exact rests_lift _

theorem rests_popAddress : popAddress.Rests (k + 1) k := by
  refine rests_pop.bind fun v => ?_
  split
  · exact rests_pure _
  · exact rests_fail _
  · exact rests_lift _

theorem rests_popFit (kind : Option ScalarKind) : (popFit kind).Rests (k + 1) k :=
  rests_pop.bind fun _ => rests_pure _

theorem rests_onTwo (op : Value → Value → Host Value) : (onTwo op).Rests (k + 2) (k + 1) :=
  rests_pop.bind fun _ => rests_pop.bind fun _ => (rests_lift _).bind fun _ => rests_push _

theorem rests_boxFor (target : Ty) (v : Value) : (boxFor target v).Rests k k := by
  refine (rests_lift _).bind fun h => ?_
  split
  · exact rests_fail _
  · split
    · exact rests_pure _
    · exact rests_refuseCast _ _ _
  · split
    · split
      · exact rests_lift _
      · exact rests_refuseCast _ _ _
    · exact rests_refuseCast _ _ _

/-! ## Fields and calls -/

theorem rests_slotNumber (f : Field) : (slotNumber f).Rests k k := by
  unfold slotNumber
  split
  · exact rests_pure _
  · exact rests_fail _

theorem rests_fieldOf (receiver : Value) (i : Nat) : (fieldOf receiver i).Rests k k := by
  refine (rests_lift _).bind fun h => (rests_readThrough receiver).bind fun v => ?_
  dsimp only
  -- whether it is in a box or not, the target is looked into alike
  split
  all_goals
    refine (rests_pure _).bind fun target => ?_
    split
    · exact rests_lift _
    · split
      · exact rests_pure _
      · exact rests_fail _
    · exact rests_fail _
    · exact rests_lift _

theorem rests_withField (target : Value) (i : Nat) (v : Value) : (withField target i v).Rests k k := by
  unfold withField
  split
  · split
    · exact rests_pure _
    · exact rests_fail _
  · exact (rests_lift _).bind fun _ => rests_pure _
  · exact rests_fail _
  · exact rests_lift _

theorem rests_setFieldOf (receiver : Value) (i : Nat) (v : Value) : (setFieldOf receiver i v).Rests k k := by
  unfold setFieldOf
  split
  · exact rests_lift _
  · exact (rests_load _).bind fun _ => (rests_withField _ i v).bind fun _ => rests_store _ _
  · exact (rests_lift _).bind fun _ => (rests_withField _ i v).bind fun _ => rests_lift _
  · exact rests_fail _
  · exact rests_lift _

theorem rests_openReceiver (g : Method) (args : List Value) : (openReceiver g args).Rests k k := by
  unfold openReceiver
  split
  · refine (rests_load _).bind fun this => ?_
    split
    · exact rests_fail _
    · exact rests_pure _
  · split
    · exact rests_fail _
    · exact rests_pure _
  · exact rests_pure _

/-- What the body of a method receives is on top of the stack. -/
theorem rests_operandsOf (g : Method) :
    (do openReceiver g (← popMany g.arity) : Exec (List Value × Option Location)).Rests (g.arity + k) k :=
  (rests_popMany _).bind fun args => rests_openReceiver g args

/-- A call leaves what the method returns. -/
theorem rests_call (g : Method) : (call g).Rests (g.arity + k) (g.ret.elim 0 (fun _ => 1) + k) := by
  refine (rests_popMany (k := k) _).bind fun args => (rests_openReceiver g args).bind fun opened =>
    (rests_lift _).bind fun r => ?_
  -- whether a receiver is written back or not, the result is pushed
  cases g.ret with
  | some t =>
    have hresult : (push (Value.fit t.storedAs? r.1)).Rests k (1 + k) := by
      rw [Nat.add_comm]
      exact rests_push _
    dsimp only
    split
    · exact (rests_store _ _).bind fun _ => hresult
    · exact hresult
  | none =>
    have hresult : (pure () : Exec Unit).Rests k (0 + k) := by
      rw [Nat.zero_add]
      exact rests_pure _
    dsimp only
    split
    · exact (rests_store _ _).bind fun _ => hresult
    · exact hresult

end Exec

/-! ## Instructions -/

/-- How many **operands** an operation takes. -/
def Op.operands : Op → Nat
  | .push _ | .loadArg _ | .addressArg _ | .loadLocal _ | .addressLocal _ | .getStatic _ => 0
  | .storeArg .. | .storeLocal .. | .not | .dup | .pop | .convert _ | .box _ | .openBox _ | .loadThrough
  | .zeroThrough _ | .checkCast _ | .makeArray _ | .itemCount | .getField _ | .putStatic _ | .throw => 1
  | .add | .sub | .and | .or | .identical | .storeThrough _ | .loadItem | .addressItem | .putField _ => 2
  | .storeItem _ => 3
  | .instantiate c => c.params.length
  | .call f => f.arity

/-- How many **results** an operation leaves when it goes on. -/
def Op.results : Op → Nat
  | .storeArg .. | .storeLocal .. | .pop | .zeroThrough _ | .storeThrough _ | .storeItem _ | .putField _
  | .putStatic _ | .throw => 0
  | .dup => 2
  | .call f => f.ret.elim 0 fun _ => 1
  | _ => 1

open Exec in
/-- An **operation** rests on its operands, and leaves its results in place of them. -/
theorem Op.rests_execute (o : Op) : o.execute.Rests o.operands o.results := by
  cases o with
  | push v => exact rests_push v
  | loadArg i => exact (rests_getArg i).bind rests_push
  | storeArg i kind => exact (rests_popFit kind).bind (rests_setArg i)
  | loadLocal i => exact (rests_getLocal i).bind rests_push
  | storeLocal i kind => exact (rests_popFit kind).bind (rests_setLocal i)
  | addressArg i => exact rests_push _
  | addressLocal i => exact rests_push _
  | add | sub | and | or | identical => exact rests_onTwo _
  | not => exact rests_pop.bind fun _ => (rests_lift _).bind rests_push
  | dup => exact rests_top.bind rests_push
  | pop => exact rests_pop.bind fun _ => rests_pure _
  | convert kind => exact rests_pop.bind fun _ => (rests_lift _).bind rests_push
  | box t =>
    exact rests_pop.bind fun _ => (rests_readThrough _).bind fun _ => (rests_lift _).bind fun _ => rests_push _
  | openBox t => exact rests_pop.bind fun _ => (rests_boxFor t _).bind fun _ => rests_push _
  | loadThrough => exact rests_pop.bind fun _ => (rests_readThrough _).bind rests_push
  | storeThrough kind => exact (rests_popFit kind).bind fun v => rests_popAddress.bind fun l => rests_store l v
  | zeroThrough t => exact rests_popAddress.bind fun l => rests_store l _
  | checkCast t =>
    refine rests_pop.bind fun v => (rests_lift _).bind fun h => ?_
    split
    · split
      · exact rests_push v
      · exact rests_refuseCast _ _ _
    · exact rests_push v
  | instantiate c => exact (rests_popMany (k := 0) _).bind fun _ => (rests_lift _).bind rests_push
  | call g => exact rests_call (k := 0) g
  | makeArray t =>
    refine rests_popIndex.bind fun n => ?_
    split
    · exact rests_fail _
    · exact (rests_lift _).bind fun _ => rests_push _
  | itemCount =>
    refine (rests_lift _).bind fun h => rests_popArray.bind fun a => ?_
    dsimp only
    split
    · exact rests_push _
    · exact rests_fail _
  | loadItem =>
    exact rests_popIndex.bind fun _ => rests_popArray.bind fun _ => (rests_lift _).bind fun _ =>
      (rests_lift _).bind rests_push
  | addressItem =>
    exact rests_popIndex.bind fun _ => rests_popArray.bind fun _ => (rests_lift _).bind fun _ =>
      (rests_lift _).bind fun _ => rests_push _
  | storeItem kind =>
    exact (rests_popFit kind).bind fun _ => rests_popIndex.bind fun _ => rests_popArray.bind fun _ => rests_lift _
  | getField f => exact (rests_slotNumber f).bind fun _ => rests_pop.bind fun _ => (rests_fieldOf _ _).bind rests_push
  | putField f =>
    exact (rests_slotNumber f).bind fun i => (rests_popFit _).bind fun v => rests_pop.bind fun r =>
      rests_setFieldOf r i v
  | getStatic f =>
    simp only [execute]
    split
    · exact (rests_lift _).bind fun _ => rests_push _
    · exact rests_fail _
  | putStatic f =>
    refine (rests_popFit _).bind fun v => ?_
    split
    · exact rests_lift _
    · exact rests_fail _
  | throw =>
    refine rests_pop.bind fun v => ?_
    split
    · exact rests_fail _
    · exact (rests_lift _).bind fun _ => rests_fail _

/-- How many operands a jump takes. -/
def Jump.operands {τ : Type} : Jump τ → Nat
  | .always _ => 0
  | .ifTrue _ | .ifFalse _ | .switch _ => 1
  | .compare .. => 2

open Exec in
/-- A **jump** rests on its operands, and leaves nothing. -/
theorem Jump.rests_follow (j : Jump Nat) : j.follow.Rests j.operands 0 := by
  cases j with
  | always t => exact rests_pure _
  | ifTrue t => exact rests_pop.bind fun _ => (rests_lift _).bind fun _ => rests_pure _
  | ifFalse t => exact rests_pop.bind fun _ => (rests_lift _).bind fun _ => rests_pure _
  | compare c t =>
    exact rests_pop.bind fun _ => rests_pop.bind fun _ => (rests_lift _).bind fun _ => rests_pure _
  | switch ts => exact rests_popIndex.bind fun _ => rests_pure _

namespace Instruction

/-- How many **operands** an instruction takes in a procedure with the given return type. -/
def operands (ret : Option Ty) : Instruction Nat → Nat
  | .op o => o.operands
  | .jump j => j.operands
  | .ret => ret.elim 0 fun _ => 1

/-- How many **results** it leaves when the run goes on. -/
def results : Instruction Nat → Nat
  | .op o => o.results
  | .jump _ | .ret => 0

open Exec in
/-- An **instruction** rests on its operands, and leaves its results in place of them. -/
theorem rests_execute (ret : Option Ty) (i : Instruction Nat) :
    (i.execute ret).Rests (i.operands ret) i.results := by
  cases i with
  | op o => exact o.rests_execute.bind fun _ => rests_pure _
  | jump j =>
    refine j.rests_follow.bind fun target => ?_
    split <;> exact rests_pure _
  | ret =>
    have hresult : (Exec.result ret).Rests (ret.elim 0 fun _ => 1) 0 := by
      cases ret with
      | some t => exact rests_popFit _
      | none => exact rests_pure _
    exact hresult.bind fun _ => rests_pure _

end Instruction

end Stackwright
