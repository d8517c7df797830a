import Stackwright.Machine.Run

/-! # Running computations on a frame

What the building blocks of instructions do when they are run: sequencing, the evaluation stack, and the
computations of the world inside a computation on a frame. -/

namespace Stackwright

/-- A machine with another evaluation stack. -/
def Machine.withStack (m : Machine) (stack : List Value) : Machine :=
  { m with frame := { m.frame with stack } }

namespace Machine

variable (m : Machine) (stack stack' : List Value)

@[simp] theorem stack_withStack : (m.withStack stack).frame.stack = stack := rfl

@[simp] theorem args_withStack : (m.withStack stack).frame.args = m.frame.args := rfl

@[simp] theorem locals_withStack : (m.withStack stack).frame.locals = m.frame.locals := rfl

@[simp] theorem world_withStack : (m.withStack stack).world = m.world := rfl

@[simp] theorem withStack_withStack : (m.withStack stack).withStack stack' = m.withStack stack' := rfl

@[simp] theorem withStack_self : m.withStack m.frame.stack = m := rfl

end Machine

/-- What is at a location of a machine. -/
def Machine.read (m : Machine) : Location → Except Fault Value
  | .argument i => slot m.frame.args i
  | .variable i => slot m.frame.locals i
  | .element a i => m.world.heap.getItem a (indexOf i)
  | .boxed b => .ok (m.world.heap.getBox b)
where
  /-- What is in a slot. -/
  slot (slots : Array Value) (i : Nat) : Except Fault Value :=
    match slots[i]? with
    | some v => .ok v
    | none => .error (.outside i slots.size)

namespace Exec

variable {α β : Type} (m : Machine)

/-- A computation after another one runs where that one ended. -/
theorem run_bind (e : Exec α) (f : α → Exec β) :
    (e >>= f).run m = match e.run m with
      | .ok a m => (f a).run m
      | .error r m => .error r m := by
  show EStateM.bind e f m = _
  unfold EStateM.bind
  cases h : e m <;> simp [EStateM.run, h]

/-- What comes first was accepted, so the rest runs. -/
theorem run_bind_ok {e : Exec α} {f : α → Exec β} {m m' : Machine} {a : α}
    (h : e.run m = .ok a m') : (e >>= f).run m = (f a).run m' := by
  rw [run_bind, h]

/-- What comes first stopped, and so does everything. -/
theorem run_bind_error {e : Exec α} {f : α → Exec β} {m m' : Machine} {r : Halt}
    (h : e.run m = .error r m') : (e >>= f).run m = .error r m' := by
  rw [run_bind, h]

@[simp] theorem run_pure (a : α) : (pure a : Exec α).run m = .ok a m := rfl

@[simp] theorem run_get : (get : Exec Machine).run m = .ok m m := rfl

@[simp] theorem run_fail (f : Fault) : (fail f : Exec α).run m = .error (.fault f) m := rfl

/-- A computation of the world leaves the frame as it is. -/
theorem run_lift (c : Host α) :
    (liftM c : Exec α).run m = match c.run m.world with
      | .ok a w => .ok a { m with world := w }
      | .error e w => .error e { m with world := w } := rfl

/-- A pushed value is the top of the stack. -/
@[simp] theorem run_push (v : Value) : (push v).run m = .ok () (m.withStack (v :: m.frame.stack)) :=
  rfl

/-- The top is popped. -/
theorem run_pop {m : Machine} {v : Value} {rest : List Value} (h : m.frame.stack = v :: rest) :
    pop.run m = .ok v (m.withStack rest) := by
  obtain ⟨⟨args, locals, stack⟩, world⟩ := m
  cases h
  rfl

/-- Loading a location reads it and changes nothing. -/
theorem run_load (p : Location) :
    (load p).run m = match m.read p with
      | .ok v => .ok v m
      | .error f => .error (.fault f) m := by
  have hslot : ∀ (slots : Array Value) (i : Nat), (slotAt slots i).run m =
      match Machine.read.slot slots i with
      | .ok v => .ok v m
      | .error f => .error (.fault f) m := by
    intro slots i
    unfold slotAt Machine.read.slot
    cases slots[i]? <;> rfl
  rcases p with i | i | ⟨a, i⟩ | b
  · exact hslot m.frame.args i
  · exact hslot m.frame.locals i
  · show (liftM (Host.ofExcept (m.world.heap.getItem a (indexOf i))) : Exec Value).run m = _
    rw [Machine.read]
    cases m.world.heap.getItem a (indexOf i) <;> rfl
  · rfl

end Exec

end Stackwright
