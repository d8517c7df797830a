import Stackwright.Builder
import Stackwright.Proofs.Machine.Converting

/-! # Emitted conversions

What a conversion call records, at every level, and what that does to an operand when the procedure runs.
A plan that was made always leads to code; whether the code does what the plan promises depends on the
source, the target and the way the operand is given.

* **`Emit.Weaves e ops`** — an accepted `e` records the operations, with reports between them.
* **`Emit.fulfils_convert_iff`** — the exact condition under which a planned conversion works. -/

namespace Stackwright

namespace Emit

/-- A call is accepted and **records** operations, with reports between them. -/
def Weaves (e : Emit Unit) (ops : List Op) : Prop :=
  ∀ (t : Tracer) (s : Session), ∃ (s' : Session) (woven : List Op),
    (e.run t).run s = .ok () s' ∧ s'.sink = s.sink ∧
      s'.code = s.code ++ (woven.map Instruction.op).toArray ∧ Op.Woven s.sink ops woven

theorem weaves_pure : Weaves (pure ()) [] := by
  intro t s
  refine ⟨s, [], rfl, rfl, ?_, .nil⟩
  simp

/-- A traced operation is recorded behind the report of its line. -/
theorem weaves_traced (text : String) (o : Op) : (traced text o).Weaves [o] := by
  intro t s
  have hreport := Op.Woven.of_report t s ("    " ++ text)
  refine ⟨_, t.report s ("    " ++ text) ++ [o], run_traced t s text o, ?_, ?_, hreport.append (.op o .nil)⟩
  · exact Session.sink_written s t _
  · simp [Session.recorded, Session.code_written]

/-- Calls one after the other record their operations one after the other. -/
theorem Weaves.seq {e e' : Emit Unit} {ops ops' : List Op} (h : e.Weaves ops) (h' : e'.Weaves ops') :
    (do e; e' : Emit Unit).Weaves (ops ++ ops') := by
  intro t s
  obtain ⟨s₁, woven, hrun, hsink, hcode, hwoven⟩ := h t s
  obtain ⟨s₂, woven', hrun', hsink', hcode', hwoven'⟩ := h' t s₁
  rw [hsink] at hwoven'
  refine ⟨s₂, woven ++ woven', ?_, hsink'.trans hsink, ?_, hwoven.append hwoven'⟩
  · rw [run_bind, hrun]
    exact hrun'
  · rw [hcode', hcode]
    simp

/-- A call that is made or not records its operations or nothing. -/
theorem Weaves.ite {e : Emit Unit} {ops : List Op} (h : e.Weaves ops) (b : Bool) :
    (if b then e else pure ()).Weaves (if b then ops else []) := by
  cases b with
  | true => exact h
  | false => exact weaves_pure

/-- A conversion records its operations. -/
theorem weaves_applyConversion (c : Conversion) : (applyConversion c).Weaves c.ops := by
  cases c with
  | identity => exact weaves_pure
  | upcast => exact weaves_pure
  | numeric k => exact weaves_traced _ _
  | openBox t readThrough =>
    exact (weaves_traced _ (.openBox t)).seq ((weaves_traced _ .loadThrough).ite readThrough)
  | box t loadFirst =>
    cases loadFirst with
    | true => exact (weaves_traced _ .loadThrough).seq (weaves_traced _ (.box t))
    | false => exact weaves_traced _ (.box t)
  | cast t => exact weaves_traced _ _

end Emit

namespace Conversion

variable {c : Conversion} {s t : Ty} {isAddress : Bool} {m : Machine} {v x : Value}
  {rest : List Value}

/-- A planned conversion fulfils its promise exactly on what it does not fail on. -/
theorem fulfils_ops_iff (hplan : between s t isAddress = .ok c)
    (hstack : m.frame.stack = x :: rest) (hv : m.world.heap.Conforms v s)
    (hx : m.Gives s isAddress v x) :
    c.Fulfils s t isAddress m rest ((Exec.all c.ops).run m) ↔
      ¬ c.Misconverts s t isAddress m.world.heap v := by
  cases planned_of_between hplan with
  | identity hsame => exact fulfils_kept_iff hv hx hstack (.inl hsame) (.inl rfl)
  | upcast hs ht _ => exact fulfils_kept_iff hv hx hstack (.inr ⟨hs, ht⟩) (.inr rfl)
  | numeric hs hk => exact fulfils_numeric_iff hv hx hstack hs hk
  | openBox hs ht _ =>
    have hxv : x = v := by
      rw [Machine.Gives, Bool.not_eq_true _ |>.mp (Heap.not_isValue_of_isReference hs),
        Bool.and_false] at hx
      exact hx
    rw [hxv] at hstack
    exact fulfils_openBox_iff hv hstack hs ht
  | box hs ht hacc => exact iff_of_true (fulfils_box hv hx hstack hs ht hacc) not_false
  | cast ht => exact fulfils_cast_iff hv hx hstack ht

end Conversion

namespace Emit

/-- Every planned conversion is emitted, at every level, as operations in a row. On an operand that gives a
value of the source, running them fulfils the promise of the plan **exactly when** the plan does not
misconvert the value. -/
theorem fulfils_convert_iff {s t : Ty} {isAddress : Bool} {c : Conversion}
    (hplan : Conversion.between s t isAddress = .ok c) (tracer : Tracer) (session : Session) :
    ∃ (session' : Session) (ops : List Op),
      ((convert s t isAddress).run tracer).run session = .ok () session' ∧
      session'.code = session.code ++ (ops.map Instruction.op).toArray ∧
      (∀ (p : Procedure) (n fuel : Nat), p.HasAt n ops →
        p.goOn (fuel + ops.length) n = (do Exec.all ops; p.goOn fuel (n + ops.length))) ∧
      ∀ (m : Machine) (v x : Value) (rest : List Value), m.frame.stack = x :: rest →
        m.world.heap.Conforms v s → m.Gives s isAddress v x →
        (c.Fulfils s t isAddress m rest ((Exec.all ops).run m) ↔
          ¬ c.Misconverts s t isAddress m.world.heap v) := by
  obtain ⟨session', ops, hrun, -, hcode, hwoven⟩ := weaves_applyConversion c tracer session
  refine ⟨session', ops, ?_, hcode, fun p n fuel h => p.goOn_all h fuel, ?_⟩
  · rw [convert, hplan]
    exact hrun
  · intro m v x rest hstack hv hx
    have hsame := hwoven.sameOutcome c.blind_ops m m (.refl m)
    rw [← Conversion.fulfils_ops_iff hplan hstack hv hx]
    exact ⟨fun h => h.alike hsame.symm, fun h => h.alike hsame⟩

/-- A number given by its address is misconverted: it is the address that has no number. -/
theorem fulfils_convert_iff_address :
    ∃ (session' : Session) (ops : List Op),
      ((convertPointee (.primitive .i32) (.primitive .i64)).run .silent).run
        (.fresh 1 "f" ⟨[.primitive .i32], some (.primitive .i64)⟩ .log) = .ok () session' ∧
      session'.code = #[] ++ (ops.map Instruction.op).toArray ∧
      ¬ (Conversion.numeric .i64).Fulfils (.primitive .i32) (.primitive .i64) true
        ⟨⟨#[.ofInt32 5], #[], [.address (.argument 0)]⟩, {}⟩ []
        ((Exec.all ops).run ⟨⟨#[.ofInt32 5], #[], [.address (.argument 0)]⟩, {}⟩) := by
  have hplan : Conversion.between (.primitive .i32) (.primitive .i64) true =
      .ok (.numeric .i64) := rfl
  obtain ⟨session', ops, hrun, hcode, -, hexact⟩ := fulfils_convert_iff hplan .silent
    (.fresh 1 "f" ⟨[.primitive .i32], some (.primitive .i64)⟩ .log)
  have hiff := hexact ⟨⟨#[.ofInt32 5], #[], [.address (.argument 0)]⟩, {}⟩ (.ofInt32 5) _ [] rfl
    (Heap.conforms_scalar_iff.2 rfl) ⟨_, rfl, rfl⟩
  refine ⟨session', ops, hrun, hcode, ?_⟩
  rw [hiff, not_not]
  exact .inr rfl

end Emit

end Stackwright
