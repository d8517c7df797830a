import Stackwright.Conversion
import Stackwright.Proofs.Machine.Straight
import Stackwright.Proofs.Value.Conformance

/-! # Converting operands

What the operations of a conversion leave of a value that conforms to the source type, and when that
conforms to the target type.

* **`Conversion.ops c`** — the operations of a conversion.
* **`Machine.Gives m s isAddress v x`** — the operand `x` gives the value `v`, or the address of a location
  that holds it.
* **`Conversion.Fulfils c …`** — the outcome is one that the conversion promises.
* **`Conversion.Misconverts c …`** — the source, the target and the value are of those it fails on. -/

namespace Stackwright

/-! ## Definitions -/

/-- The **operations** of a conversion. -/
def Conversion.ops : Conversion → List Op
  | .identity | .upcast => []
  | .numeric k => [.convert k]
  | .openBox t readThrough => .openBox t :: if readThrough then [.loadThrough] else []
  | .box t loadFirst => (if loadFirst then [.loadThrough] else []) ++ [.box t]
  | .cast t => [.checkCast t]

/-- A machine **holds** a value at a location: reading the location gives the value. -/
def Machine.Holds (m : Machine) (p : Location) (v : Value) : Prop := (Exec.load p).run m = .ok v m

/-- An operand **gives** a value: it is the value itself, or the address of a location that holds it when
addresses of values are given. -/
def Machine.Gives (m : Machine) (s : Ty) (isAddress : Bool) (v x : Value) : Prop :=
  if isAddress && s.isValue then ∃ p, x = .address p ∧ m.Holds p v else x = v

namespace Conversion

/-- Whether a conversion may leave the **address** of what it should leave. -/
def mayLeaveAddress (c : Conversion) (s : Ty) (isAddress : Bool) : Bool :=
  (isAddress && s.isValue) ||
    match c with
    | .openBox _ readThrough => !readThrough
    | _ => false

/-- Whether a conversion depends on the value, so that it **may fail** when the procedure runs. -/
def mayFail : Conversion → Bool
  | .openBox .. | .cast _ => true
  | .identity | .upcast | .numeric _ | .box .. => false

/-- The operand that a conversion left **conforms** to a type, or is an address where it may be and the
location holds what conforms. -/
def Leaves (byAddress : Bool) (t : Ty) (m : Machine) (r : Value) : Prop :=
  m.world.heap.Conforms r t ∨
    (byAddress ∧ ∃ p w, r = .address p ∧ m.Holds p w ∧ m.world.heap.Conforms w t)

/-- An outcome that a conversion **promises**: in the place of the operand there is one that conforms to
the target, or the conversion was one that may fail, and it failed in one of two ways. -/
inductive Fulfils (c : Conversion) (s t : Ty) (isAddress : Bool) (before : Machine)
    (rest : List Value) : EStateM.Result Halt Machine Unit → Prop
  /-- An operand is left. -/
  | left {m : Machine} {r : Value} (hframe : m.frame = { before.frame with stack := r :: rest })
      (h : Leaves (c.mayLeaveAddress s isAddress) t m r) : Fulfils c s t isAddress before rest (.ok () m)
  /-- The reference was null. -/
  | null {m : Machine} (h : c.mayFail) :
      Fulfils c s t isAddress before rest (.error (.fault .nullReference) m)
  /-- The reference was of another type. -/
  | cast {m : Machine} {found : String} {target : Ty} (h : c.mayFail) :
      Fulfils c s t isAddress before rest (.error (.fault (.invalidCast found target)) m)

/-- What a conversion **fails on**. A value that is left as it is must be stored as the target, or its
runtime type be accepted by it. The number of a struct, or of an address, cannot be converted. An object
of a value type is opened like a box; so is a box of an enumeration that is stored otherwise. A check of a
value lets pass what cannot be in a location of a reference type. -/
def Misconverts (c : Conversion) (s t : Ty) (isAddress : Bool) (h : Heap) (v : Value) : Prop :=
  match c with
  | .identity | .upcast =>
    if s.isValue then s.storedAs? ≠ t.storedAs? else ∃ f, h.typeOf? v = some f ∧ ¬ t.accepts f
  | .numeric _ => s.isStruct ∨ isAddress
  | .openBox _ _ =>
    ∃ f, h.typeOf? v = some f ∧ f.unboxesAs t ∧
      ((∃ o, v = .object o) ∨ f.storedAs? ≠ t.storedAs?)
  | .box _ _ => False
  | .cast _ => s.isValue ∧ (isAddress ∨ ∃ f, h.typeOf? v = some f ∧ t.accepts f)

end Conversion

/-! ## The operations are blind -/

namespace Exec

theorem blind_refuseCast {α : Type} (found : Option Ty) (v : Value) (target : Ty) :
    (refuseCast found v target : Exec α).Blind := by
  cases found with
  | some t => exact blind_fail _
  | none =>
    have hshow : (refuseCast none v target : Exec α) =
        (liftM Host.heap : Exec Heap) >>= fun h => fail (.invalidCast (h.debug v) target) := by
      funext m
      rfl
    rw [hshow]
    exact blind_heap fun h => blind_fail _

theorem blind_boxFor (target : Ty) (v : Value) : (boxFor target v).Blind := by
  refine blind_heap fun h => ?_
  cases v with
  | null => exact blind_fail _
  | boxed b =>
    dsimp only
    split
    · exact blind_pure b
    · exact blind_refuseCast _ _ _
  | _ =>
    dsimp only
    split
    · split
      · exact blind_allocate _
      · exact blind_refuseCast _ _ _
    · exact blind_refuseCast _ _ _

end Exec

/-- The operations of a conversion look only at the frame and at the heap. -/
theorem Conversion.blind_ops (c : Conversion) : ∀ o ∈ c.ops, o.execute.Blind := by
  have hload : (Op.execute .loadThrough).Blind :=
    Exec.blind_pop.bind fun v => (Exec.blind_readThrough v).bind fun w => Exec.blind_push w
  intro o ho
  cases c with
  | identity => exact absurd ho List.not_mem_nil
  | upcast => exact absurd ho List.not_mem_nil
  | numeric k =>
    obtain rfl := List.mem_singleton.1 ho
    exact Exec.blind_pop.bind fun v => (Exec.blind_expect _ v _).bind fun w => Exec.blind_push w
  | openBox t readThrough =>
    rcases List.mem_cons.1 ho with rfl | ho
    · exact Exec.blind_pop.bind fun v => (Exec.blind_boxFor t v).bind fun b => Exec.blind_push _
    · split at ho
      · obtain rfl := List.mem_singleton.1 ho
        exact hload
      · exact absurd ho List.not_mem_nil
  | box t loadFirst =>
    rcases List.mem_append.1 ho with ho | ho
    · split at ho
      · obtain rfl := List.mem_singleton.1 ho
        exact hload
      · exact absurd ho List.not_mem_nil
    · obtain rfl := List.mem_singleton.1 ho
      exact Exec.blind_pop.bind fun v => (Exec.blind_readThrough v).bind fun w =>
        (Exec.blind_allocate _).bind fun b => Exec.blind_push _
  | cast t =>
    obtain rfl := List.mem_singleton.1 ho
    refine Exec.blind_pop.bind fun v => Exec.blind_heap fun h => ?_
    split
    · split
      · exact Exec.blind_push v
      · exact Exec.blind_refuseCast _ _ _
    · exact Exec.blind_push v

/-! ## What is planned -/

namespace Conversion

variable {s t : Ty} {isAddress : Bool} {c : Conversion}

/-- The conversions that are **planned**, each with what its types are known to be. -/
inductive Planned (s t : Ty) (isAddress : Bool) : Conversion → Prop
  /-- The types are the same. -/
  | identity (h : s == t) : Planned s t isAddress .identity
  /-- A reference is kept for a type that accepts it. -/
  | upcast (hs : s.isReference) (ht : t.isReference) (h : t.accepts s) : Planned s t isAddress .upcast
  /-- A number is converted. -/
  | numeric {k : ScalarKind} (hs : s.isValue) (h : t.storedAs? = some k) :
      Planned s t isAddress (.numeric k)
  /-- A reference is opened. -/
  | openBox (hs : s.isReference) (ht : t.isValue) (h : s.accepts t) :
      Planned s t isAddress (.openBox t !isAddress)
  /-- A value is boxed. -/
  | box (hs : s.isValue) (ht : t.isReference) (h : t.accepts s) : Planned s t isAddress (.box s isAddress)
  /-- The operand is checked. -/
  | cast (ht : t.isReference) : Planned s t isAddress (.cast t)

/-- Every conversion between two types is planned. -/
theorem planned_of_between (h : between s t isAddress = .ok c) : Planned s t isAddress c := by
  have hreference : ∀ {u : Ty}, ¬ u.isValue → u.isReference := by
    intro u hu
    rw [Ty.isReference, Bool.not_eq_true _ |>.mp hu]
    rfl
  -- the cases are the branches of the plan: to the same type, to a value type, to a reference type
  unfold between at h
  split at h
  · rename_i hsame
    cases h
    exact .identity hsame
  split at h
  · rename_i ht
    unfold toValue at h
    split at h
    · rename_i hs
      split at h
      · rename_i k hk
        cases h
        exact .numeric hs hk
      · cases h
    · rename_i hs
      split at h
      · rename_i hacc
        cases h
        exact .openBox (hreference hs) ht hacc
      · cases h
  · rename_i ht
    unfold toReference at h
    split at h
    · rename_i hacc
      split at h
      · rename_i hs
        cases h
        exact .box hs (hreference ht) hacc
      · rename_i hs
        cases h
        exact .upcast (hreference hs) (hreference ht) hacc
    · split at h
      · cases h
        exact .cast (hreference ht)
      · cases h

end Conversion

/-! ## Outcomes -/

namespace Machine

variable {m m' : Machine} {p : Location} {v : Value}

theorem holds_iff : m.Holds p v ↔ m.read p = .ok v := by
  rw [Holds, Exec.run_load]
  cases m.read p with
  | ok w =>
    constructor <;> intro h <;> cases h <;> rfl
  | error g => constructor <;> intro h <;> cases h

/-- What a machine holds does not depend on what is kept for a reader. -/
theorem Holds.alike (h : m.Holds p v) (hm : m.Alike m') : m'.Holds p v := by
  rw [holds_iff] at h ⊢
  rw [hm.read, h]

/-- A location holds one value. -/
theorem Holds.unique {w : Value} (h : m.Holds p v) (h' : m.Holds p w) : v = w := by
  rw [holds_iff] at h h'
  rw [h] at h'
  cases h'
  rfl

/-- Nor does it depend on the evaluation stack. -/
theorem Holds.withStack (h : m.Holds p v) (stack : List Value) : (m.withStack stack).Holds p v := by
  rw [holds_iff] at h ⊢
  rcases p with i | i | ⟨a, i⟩ | b <;> exact h

end Machine

namespace Conversion

variable {c : Conversion} {s t : Ty} {isAddress : Bool} {before m m' : Machine} {rest : List Value}
  {r r' : EStateM.Result Halt Machine Unit} {x : Value}

/-- What is left is left whatever is kept for a reader. -/
theorem Leaves.alike {byAddress : Bool} (h : Leaves byAddress t m x) (hm : m.Alike m') :
    Leaves byAddress t m' x := by
  rw [Leaves, hm.heap]
  rcases h with h | ⟨hby, p, w, hx, hp, hw⟩
  · exact .inl h
  · exact .inr ⟨hby, p, w, hx, hp.alike hm, hw⟩

/-- The promise does not mention what is kept for a reader. -/
theorem Fulfils.alike (h : Fulfils c s t isAddress before rest r) (hr : Exec.SameOutcome r r') :
    Fulfils c s t isAddress before rest r' := by
  cases h with
  | left hframe h =>
    cases hr with
    | ok hm => exact .left (hm.frame.trans hframe) (h.alike hm)
  | null h =>
    cases hr with
    | error hm => exact .null h
  | cast h =>
    cases hr with
    | error hm => exact .cast h

/-- A conversion that leaves an operand fulfils its promise when that operand conforms. -/
theorem fulfils_ok_iff (hframe : m.frame = { before.frame with stack := x :: rest }) :
    Fulfils c s t isAddress before rest (.ok () m) ↔ Leaves (c.mayLeaveAddress s isAddress) t m x := by
  constructor
  · intro h
    cases h with
    | left hframe' h =>
      have hstack := hframe.symm.trans hframe'
      cases hstack
      exact h
  · exact .left hframe

/-- Where no address may be left, what is left conforms. -/
theorem leaves_false_iff : Leaves false t m x ↔ m.world.heap.Conforms x t := by
  simp [Leaves]

/-- An address that may be left is one of a location that holds what conforms. -/
theorem leaves_address_iff {p : Location} {w : Value} (hp : m.Holds p w) :
    Leaves true t m (.address p) ↔ m.world.heap.Conforms w t := by
  constructor
  · rintro (⟨good, -, h⟩ | ⟨-, q, w', hq, hw', h⟩)
    · exact h.elim
    · cases hq
      rw [hp.unique hw']
      exact h
  · exact fun h => .inr ⟨rfl, p, w, rfl, hp, h⟩

end Conversion

/-! ## What each operation does -/

namespace Exec

variable {m : Machine} {x : Value} {rest : List Value}

/-- One operation in a row is that operation. -/
theorem all_singleton (o : Op) : all [o] = o.execute := by
  rw [all, all]
  exact bind_pure_unit

theorem run_convert (k : ScalarKind) (hstack : m.frame.stack = x :: rest) :
    (Op.execute (.convert k)).run m = match x.convert? k with
      | some w => .ok () (m.withStack (w :: rest))
      | none => .error (.fault (.typeMismatch "primitive value" (m.world.heap.debug x)))
          (m.withStack rest) := by
  rw [Op.execute, run_bind_ok (run_pop hstack)]
  cases x.convert? k <;> rfl

theorem run_loadThrough {p : Location} {w : Value} (hstack : m.frame.stack = .address p :: rest)
    (hp : m.Holds p w) : (Op.execute .loadThrough).run m = .ok () (m.withStack (w :: rest)) := by
  have hread : (readThrough (.address p)).run (m.withStack rest) = .ok w (m.withStack rest) :=
    hp.withStack rest
  rw [Op.execute, run_bind_ok (run_pop hstack), run_bind_ok hread]
  rfl

/-- What is boxed is what is read through the top. -/
theorem run_box_of_read (t : Ty) {w : Value} (hstack : m.frame.stack = x :: rest)
    (hread : (readThrough x).run (m.withStack rest) = .ok w (m.withStack rest)) :
    (Op.execute (.box t)).run m =
      .ok () (Machine.withStack { m with world.heap := (m.world.heap.allocBox t (Value.fit t.storedAs? w)).2 }
        (.boxed (m.world.heap.allocBox t (Value.fit t.storedAs? w)).1 :: rest)) := by
  rw [Op.execute, run_bind_ok (run_pop hstack), run_bind_ok hread]
  rfl

/-- What is no address is put into a new box. -/
theorem run_box (t : Ty) (hstack : m.frame.stack = x :: rest) (hx : ∀ p, x ≠ .address p) :
    (Op.execute (.box t)).run m =
      .ok () (Machine.withStack
        { m with world.heap := (m.world.heap.allocBox t (Value.fit t.storedAs? x)).2 }
        (.boxed (m.world.heap.allocBox t (Value.fit t.storedAs? x)).1 :: rest)) := by
  refine run_box_of_read t hstack ?_
  cases x with
  | address p => exact absurd rfl (hx p)
  | _ => rfl

theorem run_checkCast (t : Ty) (hstack : m.frame.stack = x :: rest) :
    (Op.execute (.checkCast t)).run m = match m.world.heap.typeOf? x with
      | some f =>
        if t.accepts f then .ok () m
        else .error (.fault (.invalidCast f.path t)) (m.withStack rest)
      | none => .ok () m := by
  have hback : (push x).run (m.withStack rest) = .ok () m := by
    rw [run_push, Machine.withStack_withStack, Machine.stack_withStack, ← hstack,
      Machine.withStack_self]
  rw [Op.execute, run_bind_ok (run_pop hstack)]
  show (match m.world.heap.typeOf? x with
    | some found => if t.accepts found then push x else refuseCast (some found) x t
    | none => push x).run (m.withStack rest) = _
  cases m.world.heap.typeOf? x with
  | none => exact hback
  | some f =>
    dsimp only
    split
    · exact hback
    · rfl

/-- An operand is opened by taking the address of the box for it. -/
theorem run_openBox (t : Ty) (hstack : m.frame.stack = x :: rest) :
    (Op.execute (.openBox t)).run m = match (boxFor t x).run (m.withStack rest) with
      | .ok b m => .ok () (m.withStack (.address (.boxed b) :: m.frame.stack))
      | .error e m => .error e m := by
  rw [Op.execute, run_bind_ok (run_pop hstack), run_bind]
  cases (boxFor t x).run (m.withStack rest) <;> rfl

theorem run_boxFor_null (t : Ty) (m : Machine) :
    (boxFor t .null).run m = .error (.fault .nullReference) m := rfl

/-- A box is the one for itself when it can be unboxed as the type. -/
theorem run_boxFor_boxed {t : Ty} {b : BoxId} {m : Machine}
    (h : (m.world.heap.boxCell b).type.unboxesAs t) : (boxFor t (.boxed b)).run m = .ok b m := by
  show (if (m.world.heap.boxCell b).type.unboxesAs t then (pure b : Exec BoxId)
    else refuseCast (some (m.world.heap.boxCell b).type) (.boxed b) t).run m = _
  rw [if_pos h]
  rfl

/-- An object of a type that can be unboxed gets a new box. -/
theorem run_boxFor_object {t : Ty} {o : ObjectId} {m : Machine}
    (h : (m.world.heap.objectCell o).type.unboxesAs t) :
    (boxFor t (.object o)).run m = .ok (m.world.heap.allocBox t (.object o)).1
      { m with world.heap := (m.world.heap.allocBox t (.object o)).2 } := by
  show (if (m.world.heap.objectCell o).type.unboxesAs t then
      (Host.allocate (·.allocBox t (.object o)) : Exec BoxId)
    else refuseCast (some (m.world.heap.objectCell o).type) (.object o) t).run m = _
  rw [if_pos h]
  rfl

/-- What cannot be unboxed is refused. -/
theorem run_boxFor_refused {t f : Ty} {m : Machine} (hf : m.world.heap.typeOf? x = some f)
    (h : ¬ f.unboxesAs t) :
    (boxFor t x).run m = .error (.fault (.invalidCast f.path t)) m := by
  have hrefuse : ∀ e : Exec BoxId, (if f.unboxesAs t then e else refuseCast (some f) x t).run m =
      .error (.fault (.invalidCast f.path t)) m := by
    intro e
    rw [if_neg h]
    rfl
  cases x with
  | null => cases hf
  | address p => cases hf
  | _ =>
    cases hf
    exact hrefuse _

end Exec

/-! ## What each conversion leaves -/

namespace Conversion

variable {c : Conversion} {s t : Ty} {isAddress : Bool} {m : Machine} {v x : Value}
  {rest : List Value}

/-- The operand as it is conforms when the value that it gives does. -/
theorem leaves_given_iff (hx : m.Gives s isAddress v x) :
    Leaves (isAddress && s.isValue) t m x ↔ m.world.heap.Conforms v t := by
  unfold Machine.Gives at hx
  by_cases hby : (isAddress && s.isValue) = true
  · rw [if_pos hby] at hx
    obtain ⟨p, rfl, hp⟩ := hx
    rw [hby, leaves_address_iff hp]
  · rw [if_neg hby] at hx
    subst hx
    rw [Bool.not_eq_true _ |>.mp hby, leaves_false_iff]

/-- The frame is as it was when the operand is back in its place. -/
theorem frame_eq (hstack : m.frame.stack = x :: rest) : m.frame = { m.frame with stack := x :: rest } := by
  rw [← hstack]

theorem fulfils_kept_iff (hv : m.world.heap.Conforms v s) (hx : m.Gives s isAddress v x)
    (hstack : m.frame.stack = x :: rest) (hst : s == t ∨ (s.isReference ∧ t.isReference))
    (hc : c = .identity ∨ c = .upcast) :
    c.Fulfils s t isAddress m rest ((Exec.all c.ops).run m) ↔
      ¬ c.Misconverts s t isAddress m.world.heap v := by
  have hby : c.mayLeaveAddress s isAddress = (isAddress && s.isValue) := by
    rcases hc with rfl | rfl <;> exact Bool.or_false _
  have hrun : (Exec.all c.ops).run m = .ok () m := by
    rcases hc with rfl | rfl <;> rfl
  have hmis : c.Misconverts s t isAddress m.world.heap v ↔
      if s.isValue then s.storedAs? ≠ t.storedAs?
      else ∃ f, m.world.heap.typeOf? v = some f ∧ ¬ t.accepts f := by
    rcases hc with rfl | rfl <;> exact Iff.rfl
  rw [hrun, fulfils_ok_iff (frame_eq hstack), hby, leaves_given_iff hx, hmis]
  exact hv.kept_iff hst

theorem fulfils_numeric_iff {k : ScalarKind} (hv : m.world.heap.Conforms v s)
    (hx : m.Gives s isAddress v x) (hstack : m.frame.stack = x :: rest) (hs : s.isValue)
    (ht : t.storedAs? = some k) :
    (numeric k).Fulfils s t isAddress m rest ((Exec.all (numeric k).ops).run m) ↔
      ¬ (numeric k).Misconverts s t isAddress m.world.heap v := by
  have hrefused : x.convert? k = none →
      ¬ (numeric k).Fulfils s t isAddress m rest ((Exec.all (numeric k).ops).run m) := by
    intro hnone h
    rw [ops, Exec.all_singleton, Exec.run_convert k hstack, hnone] at h
    cases h
  rw [Misconverts]
  cases isAddress with
  | true =>
    -- an address is no number
    rw [Machine.Gives, hs] at hx
    obtain ⟨p, rfl, -⟩ := hx
    exact iff_of_false (hrefused rfl) (by simp)
  | false =>
    obtain rfl : x = v := hx
    rcases hv.of_value hs with ⟨y, rfl, hy⟩ | ⟨u, fields, rfl, hstruct, -⟩
    · have hnot : ¬ s.isStruct := by
        intro hstruct
        rw [Heap.storedAs_of_isStruct hstruct] at hy
        cases hy
      refine iff_of_true ?_ (by simp [hnot])
      rw [ops, Exec.all_singleton, Exec.run_convert k hstack]
      refine .left rfl (.inl ?_)
      rw [Heap.conforms_scalar_iff, Scalar.kind_convert, ht]
    · exact iff_of_false (hrefused rfl) (by simp [hstruct])

theorem fulfils_box (hv : m.world.heap.Conforms v s) (hx : m.Gives s isAddress v x)
    (hstack : m.frame.stack = x :: rest) (hs : s.isValue) (ht : t.isReference) (h : t.accepts s) :
    (box s isAddress).Fulfils s t isAddress m rest ((Exec.all (box s isAddress).ops).run m) := by
  have hvalue : ∀ p, v ≠ .address p := by
    rintro p rfl
    obtain ⟨f, hf⟩ := hv.typeOf_of_value hs
    cases hf
  -- a value is boxed as it is, wherever it came from
  have hbox : ∀ m' : Machine, m'.frame = { m.frame with stack := v :: rest } →
      m'.world = m.world →
      (box s isAddress).Fulfils s t isAddress m rest ((Op.execute (.box s)).run m') := by
    intro m' hframe hworld
    have hstack' : m'.frame.stack = v :: rest := by rw [hframe]
    rw [Exec.run_box s hstack' hvalue]
    refine .left (by rw [Machine.withStack, hframe]) (.inl ?_)
    rw [hworld]
    exact (hv.fit hs).boxed hs ht h
  cases isAddress with
  | true =>
    rw [Machine.Gives, hs] at hx
    obtain ⟨p, rfl, hp⟩ := hx
    have hload := Exec.run_loadThrough hstack hp
    rw [ops, if_pos rfl, Exec.all_append, Exec.all_singleton, Exec.all_singleton,
      Exec.run_bind_ok hload]
    exact hbox _ rfl rfl
  | false =>
    obtain rfl : x = v := hx
    rw [ops, if_neg Bool.false_ne_true, List.nil_append, Exec.all_singleton]
    exact hbox m (frame_eq hstack) rfl

theorem fulfils_cast_iff (hv : m.world.heap.Conforms v s) (hx : m.Gives s isAddress v x)
    (hstack : m.frame.stack = x :: rest) (ht : t.isReference) :
    (cast t).Fulfils s t isAddress m rest ((Exec.all (cast t).ops).run m) ↔
      ¬ (cast t).Misconverts s t isAddress m.world.heap v := by
  have hkept : (cast t).Fulfils s t isAddress m rest (.ok () m) ↔ m.world.heap.Conforms v t := by
    have hby : (cast t).mayLeaveAddress s isAddress = (isAddress && s.isValue) := Bool.or_false _
    rw [fulfils_ok_iff (frame_eq hstack), hby, leaves_given_iff hx]
  rw [ops, Exec.all_singleton, Exec.run_checkCast t hstack, Misconverts]
  by_cases hs : s.isValue
  · -- a value never fits a reference type, so the check must refuse it
    have hnot := hv.not_reference hs ht
    cases isAddress with
    | true =>
      rw [Machine.Gives, hs] at hx
      obtain ⟨p, rfl, -⟩ := hx
      exact iff_of_false (fun h => hnot (hkept.1 h)) (by simp [hs])
    | false =>
      obtain rfl : x = v := hx
      obtain ⟨f, hf⟩ := hv.typeOf_of_value hs
      rw [hf]
      dsimp only
      by_cases hacc : t.accepts f
      · rw [if_pos hacc, hkept]
        exact iff_of_false hnot (by simp [hs, hacc])
      · rw [if_neg hacc]
        exact iff_of_true (.cast rfl) (by simp [hacc])
  · have hreference : s.isReference := by simp [Ty.isReference, hs]
    have hxv : x = v := by
      rw [Machine.Gives, Bool.not_eq_true _ |>.mp hs, Bool.and_false] at hx
      exact hx
    subst hxv
    -- a reference is converted rightly by its check, whether it passes or not
    refine iff_of_true ?_ (by simp [hs])
    cases hf : m.world.heap.typeOf? x with
    | none =>
      dsimp only
      rw [hkept, hv.reference_iff hreference ht, hf]
      intro f hnone
      cases hnone
    | some f =>
      dsimp only
      by_cases hacc : t.accepts f
      · rw [if_pos hacc, hkept, hv.reference_iff hreference ht, hf]
        rintro f' hf'
        cases hf'
        exact hacc
      · rw [if_neg hacc]
        exact .cast rfl

/-- An opened box leaves its content, or its own address, so that the content is what has to conform. -/
theorem fulfils_opened_iff {readThrough : Bool} {m₁ : Machine} {b : BoxId} (hs : s.isReference)
    (hframe : m₁.frame = { m.frame with stack := .address (.boxed b) :: rest }) :
    (openBox t readThrough).Fulfils s t isAddress m rest
        ((Exec.all (if readThrough then [.loadThrough] else [])).run m₁) ↔
      m₁.world.heap.Conforms (m₁.world.heap.getBox b) t := by
  have hstack : m₁.frame.stack = .address (.boxed b) :: rest := by rw [hframe]
  have hholds : m₁.Holds (.boxed b) (m₁.world.heap.getBox b) := rfl
  have hnot : (isAddress && s.isValue) = false := by
    rw [Bool.not_eq_true _ |>.mp (Heap.not_isValue_of_isReference hs), Bool.and_false]
  have hby : (openBox t readThrough).mayLeaveAddress s isAddress = !readThrough := by
    rw [mayLeaveAddress, hnot, Bool.false_or]
  cases readThrough with
  | true =>
    have hloaded : (m₁.withStack (m₁.world.heap.getBox b :: rest)).frame =
        { m.frame with stack := m₁.world.heap.getBox b :: rest } := by
      rw [Machine.withStack, hframe]
    rw [if_pos rfl, Exec.all_singleton, Exec.run_loadThrough hstack hholds, fulfils_ok_iff hloaded, hby]
    exact leaves_false_iff
  | false =>
    rw [if_neg Bool.false_ne_true]
    show Fulfils _ s t isAddress m rest (.ok () m₁) ↔ _
    rw [fulfils_ok_iff hframe, hby]
    exact leaves_address_iff hholds

theorem fulfils_openBox_iff {readThrough : Bool} (hv : m.world.heap.Conforms v s)
    (hstack : m.frame.stack = v :: rest) (hs : s.isReference) (ht : t.isValue) :
    (openBox t readThrough).Fulfils s t isAddress m rest
        ((Exec.all (openBox t readThrough).ops).run m) ↔
      ¬ (openBox t readThrough).Misconverts s t isAddress m.world.heap v := by
  have hrun := Exec.run_openBox t hstack
  rw [ops, Exec.all, Misconverts]
  rcases hv.of_reference hs with rfl | ⟨f, hf, -⟩
  · -- null is never opened
    rw [Exec.run_boxFor_null] at hrun
    rw [Exec.run_bind_error hrun]
    refine iff_of_true (.null rfl) ?_
    rintro ⟨f, hf, -⟩
    cases hf
  by_cases hunbox : f.unboxesAs t
  · have hvalue := Heap.isValue_of_unboxesAs hunbox ht
    rcases hv.box_or_object hs hf hvalue with ⟨b, rfl⟩ | ⟨o, rfl⟩
    · cases hf
      rw [Exec.run_boxFor_boxed (m := m.withStack rest) hunbox] at hrun
      have hsame := hv.content.2.unboxes_iff hvalue hunbox
      rw [Exec.run_bind_ok hrun, fulfils_opened_iff hs rfl]
      refine hsame.trans ⟨?_, ?_⟩
      · rintro heq ⟨f, hf, -, ⟨o, ho⟩ | hne⟩
        · cases ho
        · cases hf
          exact hne heq
      · intro hnot
        by_contra hne
        exact hnot ⟨_, rfl, hunbox, .inr hne⟩
    · cases hf
      rw [Exec.run_boxFor_object (m := m.withStack rest) hunbox] at hrun
      rw [Exec.run_bind_ok hrun, fulfils_opened_iff hs rfl]
      refine iff_of_false ?_ (not_not.2 ⟨_, rfl, hunbox, .inl ⟨o, rfl⟩⟩)
      -- the content of the new box is the object
      rintro ⟨good, -, h⟩
      have hcontent := Heap.boxCell_allocBox_new (h := m.world.heap) (t := t) (.object o)
      rw [Heap.getBox, Machine.world_withStack, Machine.world_withStack, hcontent] at h
      exact Heap.not_isValue_of_isReference h.1 ht
  · rw [Exec.run_boxFor_refused (m := m.withStack rest) hf hunbox] at hrun
    rw [Exec.run_bind_error hrun]
    refine iff_of_true (.cast rfl) ?_
    rintro ⟨f', hf', hunbox', -⟩
    rw [hf] at hf'
    cases hf'
    exact hunbox hunbox'

end Conversion

end Stackwright
