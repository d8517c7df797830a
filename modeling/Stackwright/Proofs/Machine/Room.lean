import Stackwright.Proofs.Machine.Paths

/-! # Room behind the locals

A run that comes through on a machine comes through with more locals behind those that it has, and does the
same there. It cannot have reached any of the others, since a slot that is not there is refused. So code that
comes through with the locals that it was recorded for leaves those behind them as they are.

* **`Machine.beside m more`** — a machine with more locals.
* **`Exec.Roomy e`** — a computation does with more locals what it does without.
* **`Procedure.Along.beside`** — a run does. -/

namespace Stackwright

namespace Machine

/-- A machine with **more locals** behind its own. -/
def beside (m : Machine) (more : Array Value) : Machine :=
  { m with frame := { m.frame with locals := m.frame.locals ++ more } }

/-- A machine with no more than some number of its locals. -/
def upTo (k : Nat) (m : Machine) : Machine := { m with frame := { m.frame with locals := m.frame.locals.extract 0 k } }

variable {m : Machine} {more : Array Value} {k i : Nat} {v : Value}

/-- With the rest behind them these are all of its locals. -/
theorem beside_upTo (k : Nat) (m : Machine) : (m.upTo k).beside (m.frame.locals.extract k) = m := by
  obtain ⟨⟨args, locals, stack⟩, world⟩ := m
  have hall : locals.extract 0 k ++ locals.extract k = locals := by
    rw [Array.extract_append_extract, Nat.min_eq_left (Nat.zero_le k), Array.extract_eq_self_of_le (Nat.le_max_right _ _)]
  simp only [beside, upTo, hall]

/-- There are as many of them as it has. -/
theorem size_upTo (h : k ≤ m.frame.locals.size) : (m.upTo k).frame.locals.size = k := by
  simp only [upTo, Array.size_extract]
  omega

/-- A local that there is, is the same with more behind it. -/
theorem getElem?_beside_left (h : i < m.frame.locals.size) :
    (m.beside more).frame.locals[i]? = m.frame.locals[i]? := Array.getElem?_append_left h

theorem getElem?_beside_of_some (h : m.frame.locals[i]? = some v) : (m.beside more).frame.locals[i]? = some v := by
  rw [getElem?_beside_left (Array.getElem?_eq_some_iff.1 h).1, h]

/-- A local behind those that there are is one of the others. -/
theorem getElem?_beside_right (h : m.frame.locals.size ≤ i) :
    (m.beside more).frame.locals[i]? = more[i - m.frame.locals.size]? := Array.getElem?_append_right h

/-- Behind the locals of a machine that ran without the others are those that were left out. -/
theorem getElem?_beside_extract {e : Machine} (he : e.frame.locals.size = k) (h : k ≤ i) :
    (e.beside (m.frame.locals.extract k)).frame.locals[i]? = m.frame.locals[i]? := by
  rw [getElem?_beside_right (by omega), he, Array.getElem?_extract]
  split
  · rw [Nat.add_sub_cancel' h]
  · rename_i hout
    exact (Array.getElem?_eq_none (by omega)).symm

end Machine

namespace Exec

variable {α β : Type} {e : Exec α} {f : α → Exec β} {m m' : Machine} {more : Array Value}

/-! ## What needs no more room -/

/-- A computation that comes out does **with more locals** what it does without. -/
def Roomy (e : Exec α) : Prop :=
  ∀ m m' a (more : Array Value), e.run m = .ok a m' → e.run (m.beside more) = .ok a (m'.beside more)

theorem roomy_pure (a : α) : (pure a : Exec α).Roomy := by
  intro m m' b more hrun
  cases hrun
  rfl

theorem roomy_fail (g : Fault) : (fail g : Exec α).Roomy := by
  intro m m' b more hrun
  cases hrun

theorem Roomy.bind (he : e.Roomy) (hf : ∀ a, (f a).Roomy) : (e >>= f).Roomy := by
  intro m m' b more hrun
  rw [run_bind] at hrun
  split at hrun
  · rename_i a m₁ h₁
    rw [run_bind_ok (he m m₁ a more h₁)]
    exact hf a m₁ m' b more hrun
  · cases hrun

/-- A computation of the world does not see the locals. -/
theorem roomy_lift (c : Host α) : (liftM c : Exec α).Roomy := by
  intro m m' a more hrun
  have hworld : (m.beside more).world = m.world := rfl
  rw [run_lift] at hrun ⊢
  rw [hworld]
  cases hc : c.run m.world with
  | ok b w =>
    rw [hc] at hrun
    cases hrun
    rfl
  | error e w =>
    rw [hc] at hrun
    cases hrun

/-- What reads the machine, and not its locals, goes on alike. -/
theorem roomy_read {g : Machine → Exec α} (hg : ∀ m, (g m).Roomy) (hsame : ∀ m more, g (Machine.beside m more) = g m) :
    ((get : Exec Machine) >>= g).Roomy := by
  intro m m' a more hrun
  have hhere : (g (m.beside more)).run (m.beside more) = .ok a (m'.beside more) := by
    rw [hsame]
    exact hg m m m' a more hrun
  exact hhere

theorem roomy_setStack (stack : List Value) : (setStack stack).Roomy := by
  intro m m' a more hrun
  cases hrun
  rfl

theorem roomy_push (v : Value) : (push v).Roomy := by
  intro m m' a more hrun
  cases hrun
  rfl

theorem roomy_pop : pop.Roomy := by
  refine roomy_read (fun m => ?_) fun _ _ => rfl
  split
  · exact roomy_fail _
  · exact (roomy_setStack _).bind fun _ => roomy_pure _

theorem roomy_popMany (n : Nat) : (popMany n).Roomy := by
  refine roomy_read (fun m => ?_) fun _ _ => rfl
  dsimp only
  split
  · exact roomy_fail _
  · exact (roomy_setStack _).bind fun _ => roomy_pure _

theorem roomy_top : top.Roomy := by
  refine roomy_read (fun m => ?_) fun _ _ => rfl
  split
  · exact roomy_fail _
  · exact roomy_pure _

/-! ## Slots and locations -/

theorem roomy_getArg (i : Nat) : (getArg i).Roomy := by
  refine roomy_read (fun m => ?_) fun _ _ => rfl
  unfold slotAt
  split
  · exact roomy_pure _
  · exact roomy_fail _

/-- A local that is read is there. -/
theorem roomy_getLocal (i : Nat) : (getLocal i).Roomy := by
  intro m m' v more hrun
  rw [getLocal, run_bind, run_get] at hrun ⊢
  cases hv : m.frame.locals[i]? with
  | none =>
    simp only [slotAt, hv] at hrun
    cases hrun
  | some w =>
    simp only [slotAt, hv, Machine.getElem?_beside_of_some hv] at hrun ⊢
    cases hrun
    rfl

theorem roomy_setArg (i : Nat) (v : Value) : (setArg i v).Roomy := by
  intro m m' u more hrun
  have hi : i < m.frame.args.size := by
    refine Nat.lt_of_not_ge fun hi => ?_
    simp only [setArg, checkSlot, run_bind, run_get, if_neg (Nat.not_lt.2 hi)] at hrun
    cases hrun
  have hi' : i < (m.beside more).frame.args.size := hi
  simp only [setArg, checkSlot, run_bind, run_get, if_pos hi, if_pos hi', run_pure] at hrun ⊢
  cases hrun
  rfl

/-- A local that is written is there. -/
theorem roomy_setLocal (i : Nat) (v : Value) : (setLocal i v).Roomy := by
  intro m m' u more hrun
  have hi : i < m.frame.locals.size := by
    refine Nat.lt_of_not_ge fun hi => ?_
    simp only [setLocal, checkSlot, run_bind, run_get, if_neg (Nat.not_lt.2 hi)] at hrun
    cases hrun
  have hi' : i < (m.beside more).frame.locals.size := by
    rw [Machine.beside, Array.size_append]
    omega
  simp only [setLocal, checkSlot, run_bind, run_get, if_pos hi, if_pos hi', run_pure] at hrun ⊢
  cases hrun
  have hset : (m.frame.locals ++ more).setIfInBounds i v = m.frame.locals.setIfInBounds i v ++ more := by
    rw [Array.setIfInBounds_append, if_pos hi]
  let room (locals : Array Value) : Machine := ⟨⟨m.frame.args, locals, m.frame.stack⟩, m.world⟩
  exact congrArg (fun locals => (.ok () (room locals) : EStateM.Result Halt Machine Unit)) hset

theorem roomy_load (l : Location) : (load l).Roomy := by
  cases l with
  | argument i => exact roomy_getArg i
  | «variable» i => exact roomy_getLocal i
  | element a i => exact (roomy_lift _).bind fun _ => roomy_lift _
  | boxed b => exact (roomy_lift _).bind fun _ => roomy_pure _

theorem roomy_store (l : Location) (v : Value) : (store l v).Roomy := by
  cases l with
  | argument i => exact roomy_setArg i v
  | «variable» i => exact roomy_setLocal i v
  | element a i => exact roomy_lift _
  | boxed b => exact roomy_lift _

theorem roomy_readThrough (v : Value) : (readThrough v).Roomy := by
  cases v with
  | address l => exact roomy_load l
  | _ => exact roomy_pure _

/-! ## Operands -/

theorem roomy_refuseCast (found : Option Ty) (v : Value) (target : Ty) :
    (refuseCast found v target : Exec α).Roomy := by
  unfold refuseCast
  cases found with
  | some t => exact (roomy_pure _).bind fun _ => roomy_fail _
  | none => exact (roomy_lift _).bind fun _ => roomy_fail _

theorem roomy_popIndex : popIndex.Roomy := roomy_pop.bind fun _ => roomy_lift _

theorem roomy_popArray : popArray.Roomy := by
  refine roomy_pop.bind fun v => ?_
  split
  · exact roomy_pure _
  · exact roomy_fail _
  · exact roomy_lift _

theorem roomy_popAddress : popAddress.Roomy := by
  refine roomy_pop.bind fun v => ?_
  split
  · exact roomy_pure _
  · exact roomy_fail _
  · exact roomy_lift _

theorem roomy_popFit (kind : Option ScalarKind) : (popFit kind).Roomy := roomy_pop.bind fun _ => roomy_pure _

theorem roomy_onTwo (op : Value → Value → Host Value) : (onTwo op).Roomy :=
  roomy_pop.bind fun _ => roomy_pop.bind fun _ => (roomy_lift _).bind fun _ => roomy_push _

theorem roomy_boxFor (target : Ty) (v : Value) : (boxFor target v).Roomy := by
  refine (roomy_lift _).bind fun h => ?_
  split
  · exact roomy_fail _
  · split
    · exact roomy_pure _
    · exact roomy_refuseCast _ _ _
  · split
    · split
      · exact roomy_lift _
      · exact roomy_refuseCast _ _ _
    · exact roomy_refuseCast _ _ _

/-! ## Fields and calls -/

theorem roomy_slotNumber (f : Field) : (slotNumber f).Roomy := by
  unfold slotNumber
  split
  · exact roomy_pure _
  · exact roomy_fail _

theorem roomy_fieldOf (receiver : Value) (i : Nat) : (fieldOf receiver i).Roomy := by
  refine (roomy_lift _).bind fun h => (roomy_readThrough receiver).bind fun v => ?_
  dsimp only
  -- whether it is in a box or not, the target is looked into alike
  split
  all_goals
    refine (roomy_pure _).bind fun target => ?_
    split
    · exact roomy_lift _
    · split
      · exact roomy_pure _
      · exact roomy_fail _
    · exact roomy_fail _
    · exact roomy_lift _

theorem roomy_withField (target : Value) (i : Nat) (v : Value) : (withField target i v).Roomy := by
  unfold withField
  split
  · split
    · exact roomy_pure _
    · exact roomy_fail _
  · exact (roomy_lift _).bind fun _ => roomy_pure _
  · exact roomy_fail _
  · exact roomy_lift _

theorem roomy_setFieldOf (receiver : Value) (i : Nat) (v : Value) : (setFieldOf receiver i v).Roomy := by
  unfold setFieldOf
  split
  · exact roomy_lift _
  · exact (roomy_load _).bind fun _ => (roomy_withField _ i v).bind fun _ => roomy_store _ _
  · exact (roomy_lift _).bind fun _ => (roomy_withField _ i v).bind fun _ => roomy_lift _
  · exact roomy_fail _
  · exact roomy_lift _

theorem roomy_refuseInstance (f : Field) : (refuseInstance f : Exec α).Roomy := roomy_fail _

theorem roomy_openReceiver (g : Method) (args : List Value) : (openReceiver g args).Roomy := by
  unfold openReceiver
  split
  · refine (roomy_load _).bind fun this => ?_
    split
    · exact roomy_fail _
    · exact roomy_pure _
  · split
    · exact roomy_fail _
    · exact roomy_pure _
  · exact roomy_pure _

/-- A receiver that is written back is in a location that was read. -/
theorem roomy_call (g : Method) : (call g).Roomy := by
  refine (roomy_popMany _).bind fun args => (roomy_openReceiver g args).bind fun opened => (roomy_lift _).bind fun r => ?_
  dsimp only
  -- whether a receiver is written back or not, the result is pushed
  split
  · refine (roomy_store _ _).bind fun _ => ?_
    split
    · exact roomy_push _
    · exact roomy_pure _
  · split
    · exact roomy_push _
    · exact roomy_pure _

end Exec

/-! ## Steps -/

open Exec in
/-- An **operation** does with more locals what it does without. -/
theorem Op.roomy_execute (o : Op) : o.execute.Roomy := by
  cases o with
  | push v => exact roomy_push v
  | loadArg i => exact (roomy_getArg i).bind roomy_push
  | storeArg i kind => exact (roomy_popFit kind).bind (roomy_setArg i)
  | loadLocal i => exact (roomy_getLocal i).bind roomy_push
  | storeLocal i kind => exact (roomy_popFit kind).bind (roomy_setLocal i)
  | addressArg i => exact roomy_push _
  | addressLocal i => exact roomy_push _
  | add | sub | and | or | identical => exact roomy_onTwo _
  | not => exact roomy_pop.bind fun _ => (roomy_lift _).bind roomy_push
  | dup => exact roomy_top.bind roomy_push
  | pop => exact roomy_pop.bind fun _ => roomy_pure _
  | convert kind => exact roomy_pop.bind fun _ => (roomy_lift _).bind roomy_push
  | box t =>
    exact roomy_pop.bind fun _ => (roomy_readThrough _).bind fun _ => (roomy_lift _).bind fun _ => roomy_push _
  | openBox t => exact roomy_pop.bind fun _ => (roomy_boxFor t _).bind fun _ => roomy_push _
  | loadThrough => exact roomy_pop.bind fun _ => (roomy_readThrough _).bind roomy_push
  | storeThrough kind => exact (roomy_popFit kind).bind fun v => roomy_popAddress.bind fun l => roomy_store l v
  | zeroThrough t => exact roomy_popAddress.bind fun l => roomy_store l _
  | checkCast t =>
    refine roomy_pop.bind fun v => (roomy_lift _).bind fun h => ?_
    split
    · split
      · exact roomy_push v
      · exact roomy_refuseCast _ _ _
    · exact roomy_push v
  | instantiate c => exact (roomy_popMany _).bind fun _ => (roomy_lift _).bind roomy_push
  | call g => exact roomy_call g
  | makeArray t =>
    refine roomy_popIndex.bind fun n => ?_
    split
    · exact roomy_fail _
    · exact (roomy_lift _).bind fun _ => roomy_push _
  | itemCount =>
    refine (roomy_lift _).bind fun h => roomy_popArray.bind fun a => ?_
    dsimp only
    split
    · exact roomy_push _
    · exact roomy_fail _
  | loadItem =>
    exact roomy_popIndex.bind fun _ => roomy_popArray.bind fun _ => (roomy_lift _).bind fun _ =>
      (roomy_lift _).bind roomy_push
  | addressItem =>
    exact roomy_popIndex.bind fun _ => roomy_popArray.bind fun _ => (roomy_lift _).bind fun _ =>
      (roomy_lift _).bind fun _ => roomy_push _
  | storeItem kind =>
    exact (roomy_popFit kind).bind fun _ => roomy_popIndex.bind fun _ => roomy_popArray.bind fun _ => roomy_lift _
  | getField f => exact (roomy_slotNumber f).bind fun _ => roomy_pop.bind fun _ => (roomy_fieldOf _ _).bind roomy_push
  | putField f =>
    exact (roomy_slotNumber f).bind fun i => (roomy_popFit _).bind fun v => roomy_pop.bind fun r => roomy_setFieldOf r i v
  | getStatic f =>
    simp only [execute]
    split
    · exact (roomy_lift _).bind fun _ => roomy_push _
    · exact roomy_refuseInstance f
  | putStatic f =>
    refine (roomy_popFit _).bind fun v => ?_
    split
    · exact roomy_lift _
    · exact roomy_refuseInstance f
  | throw =>
    refine roomy_pop.bind fun v => ?_
    split
    · exact roomy_fail _
    · exact (roomy_lift _).bind fun _ => roomy_fail _

open Exec in
/-- So does a jump. -/
theorem Jump.roomy_follow (j : Jump Nat) : j.follow.Roomy := by
  cases j with
  | always t => exact roomy_pure _
  | ifTrue t => exact roomy_pop.bind fun _ => (roomy_lift _).bind fun _ => roomy_pure _
  | ifFalse t => exact roomy_pop.bind fun _ => (roomy_lift _).bind fun _ => roomy_pure _
  | compare c t =>
    exact roomy_pop.bind fun _ => roomy_pop.bind fun _ => (roomy_lift _).bind fun _ => roomy_pure _
  | switch ts => exact roomy_popIndex.bind fun _ => roomy_pure _

open Exec in
/-- So does an instruction. -/
theorem Instruction.roomy_execute (ret : Option Ty) (i : Instruction Nat) : (i.execute ret).Roomy := by
  cases i with
  | op o => exact o.roomy_execute.bind fun _ => roomy_pure _
  | jump j =>
    refine j.roomy_follow.bind fun target => ?_
    split <;> exact roomy_pure _
  | ret =>
    have hresult : (Exec.result ret).Roomy := by
      cases ret with
      | some t => exact roomy_popFit _
      | none => exact roomy_pure _
    exact hresult.bind fun _ => roomy_pure _

namespace Procedure

variable {p : Procedure} {P : Nat → Prop} {n n' : Nat} {m m' : Machine}

/-- A **run** does with more locals what it does without, and changes none of those. -/
theorem Along.beside (h : p.Along P n m n' m') (more : Array Value) : p.Along P n (m.beside more) n' (m'.beside more) := by
  induction h with
  | here => exact .here _ _
  | next hP hi hstep _ ih => exact .next hP hi (Instruction.roomy_execute _ _ _ _ _ more hstep) ih
  | goto hP hi hstep _ ih => exact .goto hP hi (Instruction.roomy_execute _ _ _ _ _ more hstep) ih

end Procedure

end Stackwright
