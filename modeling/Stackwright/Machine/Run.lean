import Stackwright.Machine.Step

/-! # Procedures

A **procedure** is linked code with a signature and the types of its locals. A call starts it on a fresh
frame: arguments fit their declared kinds, locals are zero. A run takes fuel, one unit for each
instruction, so that it is a total function; a run that ends within its fuel ends the same way with
more. -/

namespace Stackwright

/-- A finished **procedure**. -/
structure Procedure where
  /-- Its name. -/
  name : String
  /-- The types of its arguments and of its result. -/
  signature : Signature
  /-- The types of its locals. -/
  locals : List Ty
  /-- Its instructions. -/
  code : Array (Instruction Nat)

namespace Procedure

/-- The text of a procedure in diagnostics. -/
def debug (p : Procedure) : String :=
  "Procedure \x7b name: " ++ Quoted.encode p.name ++ ", signature: " ++ p.signature.debug ++
    ", locals: " ++ toString p.locals.length ++ ", steps: " ++ toString p.code.size ++ " \x7d"

/-- Runs from a position on. Past the last instruction null is returned. -/
def runFrom (p : Procedure) : Nat → Nat → Machine → EStateM.Result Halt Machine Value
  | 0, _, m => .error .outOfFuel m
  | fuel + 1, position, m =>
    match p.code[position]? with
    | none => .ok .null m
    | some i =>
      match (i.execute p.signature.ret).run m with
      | .ok .next m => p.runFrom fuel (position + 1) m
      | .ok (.goto target) m => p.runFrom fuel target m
      | .ok (.done v) m => .ok v m
      | .error e m => .error e m

/-- The frame a call starts on. -/
def frame (p : Procedure) (args : List Value) : Frame where
  args := (args.zipWith (fun v t => Value.fit t.storedAs? v) p.signature.args).toArray
  locals := (p.locals.map Value.zeroOf).toArray
  stack := []

/-- **Calls** a procedure. -/
def call (p : Procedure) (fuel : Nat) (args : List Value) : Host Value := fun w =>
  if args.length = p.signature.args.length then
    match p.runFrom fuel 0 ⟨p.frame args, w⟩ with
    | .ok v m => .ok v m.world
    | .error e m => .error e m.world
  else .error (.fault (.argumentCount p.signature.args.length args.length)) w

/-- More fuel does not change a run that ended. -/
theorem runFrom_fuel {p : Procedure} {fuel position : Nat} {m m' : Machine} {v : Value}
    (h : p.runFrom fuel position m = .ok v m') (more : Nat) :
    p.runFrom (fuel + more) position m = .ok v m' := by
  induction fuel generalizing position m with
  | zero => simp [runFrom] at h
  | succ fuel ih =>
    rw [show fuel + 1 + more = (fuel + more) + 1 by omega]
    rw [runFrom] at h ⊢
    cases hi : p.code[position]? with
    | none => simpa [hi] using h
    | some i =>
      cases hs : (i.execute p.signature.ret).run m with
      | error e m₁ => simp [hi, hs] at h
      | ok flow m₁ =>
        cases flow with
        | next => simp only [hi, hs] at h ⊢; exact ih h
        | goto t => simp only [hi, hs] at h ⊢; exact ih h
        | done v => simpa [hi, hs] using h

end Procedure

end Stackwright
