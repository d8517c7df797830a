import Stackwright.Proofs.Emission.Conversions
import Stackwright.Proofs.Emission.Loading
import Stackwright.Proofs.Machine.Aside
import Stackwright.Proofs.Scalar.Widening

/-! # Up and back

A value that is converted to a reference type that accepts its type, and converted back, is the value
again. Both conversions are always planned. A value of a value type is boxed and read out of the box; a
reference is kept both times, and the check on the way back accepts whatever was accepted before.

* **`Heap.IsOf h v t`** — the outside of a value is of a type; what it holds need not be.
* **`Conversion.RoundTrip s t up back`** — the second conversion takes back the first.
* **`Emit.convert_round_trip`** — both conversions are accepted, and give the value back. -/

namespace Stackwright

/-! ## (1) Values of a type -/

/-- A value **is of** a type as its outside shows: a scalar of the kind the type is stored as, a struct of
the type, or, for a reference type, null or whatever has a runtime type that the type accepts. -/
inductive Heap.IsOf (h : Heap) : Value → Ty → Prop
  /-- A scalar of the kind. -/
  | scalar {x : Scalar} {t : Ty} (ht : t.storedAs? = some x.kind) : IsOf h (.scalar x) t
  /-- A struct of the type. -/
  | struct {u t : Ty} {fields : List Value} (ht : t.isStruct) (hu : u == t) : IsOf h (.struct u fields) t
  /-- Null. -/
  | null {t : Ty} (ht : t.isReference) : IsOf h .null t
  /-- A value of a runtime type that is accepted. -/
  | accepted {v : Value} {t f : Ty} (ht : t.isReference) (hf : h.typeOf? v = some f)
      (hacc : t.accepts f) : IsOf h v t

/-- What conforms to a type is of the type. -/
theorem Heap.Conforms.isOf {h : Heap} {v : Value} {t : Ty} (hv : h.Conforms v t) : h.IsOf v t := by
  by_cases ht : t.isValue
  · rcases hv.of_value ht with ⟨x, rfl, hx⟩ | ⟨u, fields, rfl, hstruct, hu⟩
    · exact .scalar hx
    · exact .struct hstruct hu
  · have hreference : t.isReference := by simp [Ty.isReference, ht]
    rcases hv.of_reference hreference with rfl | ⟨f, hf, hacc⟩
    · exact .null hreference
    · exact .accepted hreference hf hacc

/-- Two values **agree**: they are one, or they are scalars that agree. -/
inductive Value.Agrees : Value → Value → Prop
  /-- They are the same. -/
  | same (v : Value) : Agrees v v
  /-- They are scalars that agree. -/
  | scalar {x y : Scalar} (h : x.Agrees y) : Agrees (.scalar x) (.scalar y)

namespace Heap.IsOf

variable {h : Heap} {v : Value} {t : Ty}

/-- No address is of a type. -/
theorem ne_address (hv : h.IsOf v t) (p : Location) : v ≠ .address p := by
  rintro rfl
  cases hv with
  | accepted ht hf hacc => cases hf

/-- What is of a value type agrees with itself when it is made to fit the type. -/
theorem fit_agrees (hv : h.IsOf v t) (ht : t.isValue) : (Value.fit t.storedAs? v).Agrees v := by
  cases hv with
  | scalar hx =>
    rw [hx, Value.fit_scalar]
    exact .scalar (Scalar.convert_agrees _)
  | struct hstruct hu =>
    rw [Heap.storedAs_of_isStruct hstruct, Value.fit_none]
    exact .same _
  | null hreference => exact absurd ht (Heap.not_isValue_of_isReference hreference)
  | accepted hreference => exact absurd ht (Heap.not_isValue_of_isReference hreference)

/-- What is of a reference type and has a runtime type is accepted. -/
theorem accepts (hv : h.IsOf v t) (ht : t.isReference) {f : Ty} (hf : h.typeOf? v = some f) :
    t.accepts f := by
  have hnot := Heap.not_isValue_of_isReference ht
  cases hv with
  | scalar hx => exact absurd (Heap.isValue_of_storedAs hx) hnot
  | struct hstruct hu => exact absurd (Heap.isValue_of_isStruct hstruct) hnot
  | null _ => cases hf
  | accepted _ hf' hacc =>
    rw [hf] at hf'
    cases hf'
    exact hacc

end Heap.IsOf

/-! ## (2) The two plans -/

namespace Conversion

/-- The **plans** for the way up and the way back. -/
inductive RoundTrip (s t : Ty) : Conversion → Conversion → Prop
  /-- A value is boxed, and read out of the box. -/
  | boxed (hs : s.isValue) : RoundTrip s t (.box s false) (.openBox s true)
  /-- A reference is kept. -/
  | kept {up back : Conversion} (hs : s.isReference) (hup : up.ops = []) (hback : back.ops = []) :
      RoundTrip s t up back
  /-- A reference is kept, and checked on the way back. -/
  | checked {up : Conversion} (hs : s.isReference) (hup : up.ops = []) : RoundTrip s t up (.cast s)

variable {s t : Ty}

/-- **Both ways are planned** to a reference type that accepts the source. -/
theorem planned_roundTrip (ht : t.isReference) (hacc : t.accepts s) :
    ∃ up back, between s t false = .ok up ∧ between t s false = .ok back ∧ RoundTrip s t up back := by
  have htnot := Heap.not_isValue_of_isReference ht
  by_cases hsame : s == t
  · -- the types are the same, so both are references
    have hs : s.isReference := by
      rw [Ty.isReference, Ty.isValue, (Ty.beq_iff.1 hsame).1]
      exact ht
    refine ⟨.identity, .identity, between_of_beq hsame, between_of_beq ?_, .kept hs rfl rfl⟩
    rw [Ty.beq_comm]
    exact hsame
  have hback : ¬ t == s := by
    rw [Ty.beq_comm]
    exact hsame
  -- a value is boxed on its way; between references it depends on whether the source takes the target back
  by_cases hs : s.isValue
  · refine ⟨.box s false, .openBox s true, ?_, ?_, .boxed hs⟩
    · rw [between, if_neg hsame, if_neg htnot, toReference, if_pos hacc, if_pos hs]
    · rw [between_reference ht hs, if_pos hacc]
      rfl
  · have hreference : s.isReference := by simp [Ty.isReference, hs]
    have hup : between s t false = .ok .upcast := by
      rw [between, if_neg hsame, if_neg htnot, toReference, if_pos hacc, if_neg hs]
    by_cases hst : s.accepts t
    · refine ⟨.upcast, .upcast, hup, ?_, .kept hreference rfl rfl⟩
      rw [between, if_neg hback, if_neg hs, toReference, if_pos hst, if_neg htnot]
    · refine ⟨.upcast, .cast s, hup, ?_, .checked hreference rfl⟩
      rw [between, if_neg hback, if_neg hs, toReference, if_neg hst, hacc]
      rfl

end Conversion

/-! ## (3) What the two do in a row -/

namespace Exec

variable {m : Machine} {v : Value} {rest : List Value} {s : Ty}

/-- What is boxed and read out of the box was made to fit the type on the way. -/
theorem run_box_openBox (hstack : m.frame.stack = v :: rest) (hv : ∀ p, v ≠ .address p) :
    (all [.box s, .openBox s, .loadThrough]).run m =
      .ok () (Machine.withStack
        { m with world.heap := (m.world.heap.allocBox s (Value.fit s.storedAs? v)).2 }
        (Value.fit s.storedAs? v :: rest)) := by
  let b := (m.world.heap.allocBox s (Value.fit s.storedAs? v)).1
  let m₁ := Machine.withStack
    { m with world.heap := (m.world.heap.allocBox s (Value.fit s.storedAs? v)).2 } (.boxed b :: rest)
  -- the new box is of the type that it is opened as
  have hcell : m₁.world.heap.boxCell b = ⟨s, Value.fit s.storedAs? v⟩ :=
    Heap.boxCell_allocBox_new _
  have hbox : (Op.execute (.box s)).run m = .ok () m₁ := run_box s hstack hv
  have hopens : (m₁.world.heap.boxCell b).type.unboxesAs s := by
    rw [hcell, Ty.unboxesAs, Ty.beq_rfl, Bool.true_or]
  have hopen : (Op.execute (.openBox s)).run m₁ =
      .ok () (m₁.withStack (.address (.boxed b) :: rest)) := by
    have hrun := run_openBox s (m := m₁) rfl
    rw [run_boxFor_boxed (m := m₁.withStack rest) hopens] at hrun
    exact hrun
  have hholds : (m₁.withStack (.address (.boxed b) :: rest)).Holds (.boxed b)
      (Value.fit s.storedAs? v) := by
    rw [Machine.holds_iff]
    show Except.ok (m₁.world.heap.boxCell b).content = _
    rw [hcell]
  have hload := run_loadThrough rfl hholds
  rw [all, run_bind_ok hbox, all, run_bind_ok hopen, all_singleton]
  exact hload

/-- A check lets pass what is of the type. -/
theorem run_checkCast_of_isOf (hstack : m.frame.stack = v :: rest) (hs : s.isReference)
    (hv : m.world.heap.IsOf v s) : (all [.checkCast s]).run m = .ok () m := by
  rw [all_singleton, run_checkCast s hstack]
  cases hf : m.world.heap.typeOf? v with
  | none => rfl
  | some f => exact if_pos (hv.accepts hs hf)

end Exec

/-- The two plans in a row **give the value back**. -/
theorem Conversion.RoundTrip.run {s t : Ty} {up back : Conversion} (h : RoundTrip s t up back)
    {m : Machine} {v : Value} {rest : List Value} (hstack : m.frame.stack = v :: rest)
    (hv : m.world.heap.IsOf v s) :
    ∃ m' w, (Exec.all (up.ops ++ back.ops)).run m = .ok () m' ∧
      m'.frame = { m.frame with stack := w :: rest } ∧ w.Agrees v ∧
      m.world.heap.Adds m'.world.heap := by
  cases h with
  | boxed hs =>
    exact ⟨_, _, Exec.run_box_openBox hstack hv.ne_address, rfl, hv.fit_agrees hs,
      Heap.Adds.allocBox _ _ _⟩
  | kept hs hup hback =>
    refine ⟨m, v, ?_, Conversion.frame_eq hstack, .same v, .refl _⟩
    rw [hup, hback]
    rfl
  | checked hs hup =>
    refine ⟨m, v, ?_, Conversion.frame_eq hstack, .same v, .refl _⟩
    rw [hup]
    exact Exec.run_checkCast_of_isOf hstack hs hv

/-! ## (4) The emitted code -/

/-- Operations without any report between them. -/
theorem Op.Woven.plain (sink : Sink) (os : List Op) : Op.Woven sink os os := by
  induction os with
  | nil => exact .nil
  | cons o os ih => exact .op o ih

/-- Reports between two rows of blind operations, in whatever sinks, do not change what the rows do. -/
theorem Op.Woven.sameOutcome_append {sink sink' : Sink} {os os' ops ops' : List Op}
    (h : Op.Woven sink os ops) (h' : Op.Woven sink' os' ops') (hblind : ∀ o ∈ os, o.execute.Blind)
    (hblind' : ∀ o ∈ os', o.execute.Blind) (m : Machine) :
    Exec.SameOutcome ((Exec.all (os ++ os')).run m) ((Exec.all (ops ++ ops')).run m) := by
  rw [Exec.all_append, Exec.all_append, Exec.run_bind, Exec.run_bind]
  have hsame := h.sameOutcome hblind m m (.refl m)
  generalize (Exec.all os).run m = r at hsame
  generalize (Exec.all ops).run m = r' at hsame
  cases hsame with
  | ok hm => exact h'.sameOutcome hblind' _ _ hm
  | error hm => exact .error hm

namespace Emit

/-- A planned conversion records its operations, at every level. -/
theorem weaves_convert {s t : Ty} {isAddress : Bool} {c : Conversion}
    (hplan : Conversion.between s t isAddress = .ok c) : (convert s t isAddress).Weaves c.ops := by
  have hconvert : convert s t isAddress = applyConversion c := by
    rw [convert, hplan]
    rfl
  rw [hconvert]
  exact weaves_applyConversion c

/-- **Up and back is the identity.** To a reference type that accepts the source, both conversions are
accepted, in every session and at every level. On a value of the source, what they record does not fail and
leaves the value that was there; a procedure that has it in a row goes on from there. -/
theorem convert_round_trip {s t : Ty} (ht : t.isReference) (hacc : t.accepts s) :
    ∃ up back : Conversion, (convertTop s t).Weaves up.ops ∧ (convertTop t s).Weaves back.ops ∧
      ∀ {sink sink' : Sink} {ops ops' : List Op}, Op.Woven sink up.ops ops →
        Op.Woven sink' back.ops ops' →
        ∀ (m : Machine) (v : Value) (rest : List Value), m.frame.stack = v :: rest →
          m.world.heap.IsOf v s →
          ∃ m' w, (Exec.all (ops ++ ops')).run m = .ok () m' ∧
            m'.frame = { m.frame with stack := w :: rest } ∧ w.Agrees v ∧
            m.world.heap.Adds m'.world.heap ∧
            ∀ (p : Procedure) (n fuel : Nat), p.HasAt n (ops ++ ops') →
              (p.goOn (fuel + (ops ++ ops').length) n).run m =
                (p.goOn fuel (n + (ops ++ ops').length)).run m' := by
  obtain ⟨up, back, hup, hback, htrip⟩ := Conversion.planned_roundTrip ht hacc
  refine ⟨up, back, weaves_convert hup, weaves_convert hback, ?_⟩
  intro sink sink' ops ops' hops hops' m v rest hstack hv
  obtain ⟨m₁, w, hrun, hframe, hagrees, hadds⟩ := htrip.run hstack hv
  have hsame := hops.sameOutcome_append hops' up.blind_ops back.blind_ops m
  rw [hrun] at hsame
  -- the reports leave the frame and the heap alone
  obtain ⟨m', hrun', halike⟩ : ∃ m', (Exec.all (ops ++ ops')).run m = .ok () m' ∧ m₁.Alike m' := by
    generalize (Exec.all (ops ++ ops')).run m = r at hsame
    cases hsame with
    | ok halike => exact ⟨_, rfl, halike⟩
  refine ⟨m', w, hrun', halike.frame.trans hframe, hagrees, halike.heap ▸ hadds, ?_⟩
  intro p n fuel hcode
  rw [p.goOn_all hcode fuel, Exec.run_bind_ok hrun']

/-- A byte of an enumeration that goes to an interface of the enumeration and back is the byte. -/
theorem convert_round_trip_enumeration :
    let shown : Ty := .interface "Shown" [] []
    let color : Ty := .enumeration "Color" .u8 [shown] []
    let red : Value := .scalar (.word .u8 5)
    shown.isReference ∧ shown.accepts color ∧ Heap.IsOf {} red color ∧
      ∃ up back : Conversion, (convertTop color shown).Weaves up.ops ∧
        (convertTop shown color).Weaves back.ops ∧
        ∃ m', (Exec.all (up.ops ++ back.ops)).run ⟨⟨#[], #[], [red]⟩, {}⟩ = .ok () m' ∧
          m'.frame.stack = [red] := by
  intro shown color red
  have hreference : shown.isReference := rfl
  have haccepts : shown.accepts color := by decide
  have hred : Heap.IsOf {} red color := .scalar rfl
  obtain ⟨up, back, hup, hback, htrip⟩ := convert_round_trip hreference haccepts
  obtain ⟨m', w, hrun, hframe, hagrees, -⟩ := htrip (.plain .log _) (.plain .log _)
    ⟨⟨#[], #[], [red]⟩, {}⟩ red [] rfl hred
  refine ⟨hreference, haccepts, hred, up, back, hup, hback, m', hrun, ?_⟩
  -- bytes agree only when they are the same
  have hword : ∀ v, w.Agrees v → v = .scalar (.word .u8 5) → w = v := by
    intro v hagrees hv
    cases hagrees with
    | same _ => rfl
    | scalar h =>
      cases h with
      | same x => rfl
      | nan => cases hv
  rw [hframe, hword red hagrees rfl]

end Emit

end Stackwright
