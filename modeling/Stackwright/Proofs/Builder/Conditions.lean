import Stackwright.Proofs.Builder.Going
import Stackwright.Proofs.Builder.Guards
import Stackwright.Proofs.Structure.Programs
import Stackwright.Proofs.Value.Items

/-! # Conditions of alternatives

An alternative of a conditional is entered if its condition holds. The code of a condition loads its
operands, if it has any of its own, and tests what is on the stack: a jump on the opposite goes to the next
alternative. There are three ways to be the opposite: a jump if false, a jump if true, and a jump on the
inverse of a comparison.

* **`Condition.Tells m r c`** — a condition holds of a machine, or does not.
* **`Procedure.Asks`** — code that finds out about a condition and goes to the body or to a label. -/

namespace Stackwright

/-- The **condition** of an alternative. -/
inductive Condition
  /-- The condition on the stack is the wanted one. -/
  | truth (wanted : Bool)
  /-- A comparison of the two operands on the stack holds. -/
  | compared (comparison : Comparison)
  /-- A comparison of two operands holds. -/
  | operands (left : Operand) (comparison : Comparison) (right : Operand)
  /-- An operand is not the zero of its type. -/
  | notZero (operand : Operand)
  /-- A string local is empty, or is not. -/
  | emptiness (slot : Local) (wanted : Bool)

/-- What a comparison **says** of two integers. What it says of other values is left open. -/
def Comparison.Says (c : Comparison) (r : Bool) : Value → Value → Prop
  | .scalar (.word j v), .scalar (.word k w) =>
    r = c.accepts (compare (Scalar.wordValue j v) (Scalar.wordValue k w))
  | _, _ => True

/-- A value is **compared with the zero** of its type. Structs are compared in boxes, a value that is no
address as it is. -/
inductive Heap.Zeroed (h : Heap) (t : Ty) (v : Value) : Bool → Prop
  /-- By what it is. -/
  | plain (ht : t.isStruct = false) : Zeroed h t v (h.identical (.zeroOf t) v)
  /-- In boxes. -/
  | boxed {h' : Heap} {a b : BoxId} {w : Value} (ht : t.isStruct) (hh : h.Adds h') (hab : a ≠ b)
      (ha : h'.boxCell a = ⟨t, .zeroOf t⟩) (hb : h'.boxCell b = ⟨t, w⟩)
      (hw : (∀ l, v ≠ .address l) → w = v) : Zeroed h t v (h'.equal (.boxed a) (.boxed b))

/-- Only the empty string has no units. -/
theorem unitCount_eq_zero {x : String} : unitCount x = 0 ↔ x = "" := by
  have hle : ∀ (cs : List Char) (n : Nat),
      n + cs.length ≤ cs.foldl (fun n c => n + if c.toNat < 0x10000 then 1 else 2) n := by
    intro cs
    induction cs with
    | nil => exact fun n => Nat.le_refl n
    | cons c cs ih =>
      intro n
      refine Nat.le_trans ?_ (ih _)
      rw [List.length_cons]
      dsimp only
      split <;> omega
  constructor
  · intro hx
    have hlength := hle x.toList 0
    rw [← unitCount, hx] at hlength
    have hnil : x.toList = [] := List.eq_nil_of_length_eq_zero (by omega)
    exact String.toList_eq_nil_iff.1 hnil
  · rintro rfl
    rfl

/-- A number below 2³² has no bits only if it is zero. -/
theorem Scalar.lowBits_eq_zero {n : Nat} (h : n < 1 <<< 32) : lowBits 32 n = 0 ↔ n = 0 := by
  have hn : (lowBits 32 n).toNat = n := Nat.mod_eq_of_lt h
  rw [← BitVec.toNat_inj, hn]
  rfl

namespace Condition

/-- How many operands on the stack a condition **takes**. -/
def taken : Condition → Nat
  | .truth _ => 1
  | .compared _ => 2
  | .operands .. | .notZero _ | .emptiness .. => 0

/-- The locals that a condition reads. -/
def locals : Condition → List Local
  | .truth _ | .compared _ => []
  | .operands a _ b => a.locals ++ b.locals
  | .notZero o => o.locals
  | .emptiness l _ => [l]

/-- What a condition **tells** of a machine. -/
def Tells (m : Machine) (r : Bool) : Condition → Prop
  | .truth wanted => ∃ v rest held, m.frame.stack = v :: rest ∧ v.condition? = some held ∧ r = (held == wanted)
  | .compared c => ∃ x y rest, m.frame.stack = y :: x :: rest ∧ c.Says r x y
  | .operands a c b => ∃ x y, m.operand? a = some x ∧ m.operand? b = some y ∧ c.Says r x y
  | .notZero o => ∃ v zero, m.operand? o = some v ∧ m.world.heap.Zeroed o.type v zero ∧ r = !zero
  | .emptiness l wanted => ∃ v, m.operand? (.variable l) = some v ∧
    -- the length of a string is a 32-bit integer; a string may also be given by its address
    ((∃ x, v = .text x ∧ r = ((Scalar.lowBits 32 (unitCount x) == 0) == wanted)) ∨ ∃ a, v = .address a)

/-- **Emptiness.** Of a string of less than 2³² units the condition tells whether it is the empty one. -/
theorem tells_emptiness {m : Machine} {l : Local} {x : String} {r wanted : Bool}
    (hx : m.operand? (.variable l) = some (.text x)) (hshort : unitCount x < 1 <<< 32) :
    (emptiness l wanted).Tells m r ↔ r = ((x == "") == wanted) := by
  have hempty : (Scalar.lowBits 32 (unitCount x) == 0) = (x == "") := by
    rw [Bool.eq_iff_iff, beq_iff_eq, beq_iff_eq, ← unitCount_eq_zero, Scalar.lowBits_eq_zero hshort]
  rw [← hempty]
  constructor
  · rintro ⟨v, hv, ⟨y, rfl, hr⟩ | ⟨a, rfl⟩⟩
    · cases hx.symm.trans hv
      exact hr
    · cases hx.symm.trans hv
  · exact fun hr => ⟨_, hx, .inl ⟨x, rfl, hr⟩⟩

end Condition

/-! ## Tests -/

/-- What is **tested** behind the operands of a condition. -/
inductive Test
  /-- Whether the top is a wanted condition. -/
  | truth (wanted : Bool)
  /-- Whether a comparison of the two topmost operands holds. -/
  | comparison (comparison : Comparison)

namespace Test

/-- The jump on the **opposite** of a test. -/
def jump {α : Type} (l : α) : Test → Jump α
  | .truth true => .ifFalse l
  | .truth false => .ifTrue l
  | .comparison c => .compare c.negated l

/-- The jump has one target. -/
theorem mapTargets_jump {α β : Type} (t : Test) (l : α) (f : α → Except BuildError β) :
    (t.jump l).mapTargets f = (fun q => t.jump q) <$> f l := by
  cases t with
  | comparison c => rfl
  | truth wanted => cases wanted <;> rfl

open Emit in
/-- The call that jumps on the opposite of a test, to a new label. -/
def skip : Test → Emit Label
  | .truth true => do
    let l ← newLabel
    jumpIfFalse l
    pure l
  | .truth false => do
    let l ← newLabel
    jumpIfTrue l
    pure l
  | .comparison c => jumpUnless c

/-- A test **comes out** as `r`, and leaves the stack `rest`. -/
def Yields (m : Machine) (r : Bool) (rest : List Value) : Test → Prop
  | .truth wanted => ∃ v held, m.frame.stack = v :: rest ∧ v.condition? = some held ∧ r = (held == wanted)
  | .comparison c => ∃ x y held, m.frame.stack = y :: x :: rest ∧
    (Host.holds c.negated x y).run m.world = .ok held m.world ∧ r = !held

/-- A jump on a condition takes it from the stack. -/
theorem follow_condition {m m' : Machine} {target : Option Nat} {f : Bool → Option Nat}
    (h : (do
      let v ← Exec.pop
      return f (← (Host.expect "branch condition" v v.condition? : Host Bool)) : Exec (Option Nat)).run m =
        .ok target m') :
    ∃ v rest held, m.frame.stack = v :: rest ∧ v.condition? = some held ∧ target = f held ∧ m' = m.withStack rest := by
  obtain ⟨⟨args, locals, stack⟩, world⟩ := m
  cases stack with
  | nil => cases h
  | cons v rest =>
    cases hv : v.condition? with
    | some held =>
      have hrun : (do
          return f (← (Host.expect "branch condition" v (some held) : Host Bool)) : Exec (Option Nat)).run
            ⟨⟨args, locals, rest⟩, world⟩ = .ok target m' := hv ▸ h
      cases hrun
      exact ⟨v, rest, held, rfl, hv, rfl, rfl⟩
    | none =>
      have hrun : (do
          return f (← (Host.expect "branch condition" v none : Host Bool)) : Exec (Option Nat)).run
            ⟨⟨args, locals, rest⟩, world⟩ = .ok target m' := hv ▸ h
      cases hrun

/-- The jump of a test is taken where the test fails. -/
theorem yields_of_follow {t : Test} {q : Nat} {m m' : Machine} {target : Option Nat}
    (h : (t.jump q).follow.run m = .ok target m') :
    ∃ r rest, t.Yields m r rest ∧ target = (if r then none else some q) ∧ m' = m.withStack rest := by
  cases t with
  | truth wanted =>
    cases wanted with
    | true =>
      obtain ⟨v, rest, held, hstack, hv, htarget, hm'⟩ :=
        follow_condition (f := fun held => if held then none else some q) h
      exact ⟨held == true, rest, ⟨v, held, hstack, hv, rfl⟩, by rw [htarget]; cases held <;> rfl, hm'⟩
    | false =>
      obtain ⟨v, rest, held, hstack, hv, htarget, hm'⟩ :=
        follow_condition (f := fun held => if held then some q else none) h
      exact ⟨held == false, rest, ⟨v, held, hstack, hv, rfl⟩, by rw [htarget]; cases held <;> rfl, hm'⟩
  | comparison c =>
    cases hstack : m.frame.stack with
    | nil =>
      obtain ⟨⟨args, locals, stack⟩, world⟩ := m
      obtain rfl : stack = [] := hstack
      cases h
    | cons y below =>
      cases below with
      | nil =>
        obtain ⟨⟨args, locals, stack⟩, world⟩ := m
        obtain rfl : stack = [y] := hstack
        cases h
      | cons x rest =>
        rw [jump, Jump.follow, Exec.run_bind_ok (Exec.run_pop hstack), Exec.run_bind_ok (Exec.run_pop rfl),
          Exec.run_bind] at h
        split at h
        · rename_i held m₁ hholds
          cases h
          rw [Exec.run_lift, Machine.world_withStack, Machine.world_withStack] at hholds
          split at hholds
          · rename_i held' w hrun
            cases hholds
            obtain ⟨rfl, -⟩ := Host.holds_inverse hrun
            exact ⟨!held, rest, ⟨x, y, held, hstack, hrun, rfl⟩, by cases held <;> rfl, rfl⟩
          · cases hholds
        · cases h

end Test

/-! ## Preparing a test -/

/-- The zero of a type as it is **loaded**: narrow integers are widened. -/
def Ty.zeroLoaded (t : Ty) : Value :=
  match t.storedAs? with
  | some .bool => .scalar (.bool false)
  | some .i64 | some .u64 => .scalar (.wrap .i64 0)
  | some (.float k) => .scalar (.zero (.float k))
  | some (.word _) => .ofInt32 0
  | none => .null

/-- A zero is no address. -/
theorem Value.zeroOf_ne_address {t : Ty} (l : Location) : zeroOf t ≠ .address l := by
  cases t <;> simp [zeroOf]

namespace Heap

variable {h h' : Heap} {t : Ty} {v : Value}

/-- Scalars of one number are identical to the same values, whatever the heap. -/
theorem identical_scalar {a b : Scalar} (hab : a.toNumber = b.toNumber) :
    h.identical (.scalar a) v = h'.identical (.scalar b) v := by
  cases v with
  | scalar s =>
    show (a.toNumber.compare? s.toNumber == some .eq) = (b.toNumber.compare? s.toNumber == some .eq)
    rw [hab]
  | _ => rfl

/-- What is compared with a loaded zero is compared with the zero itself. -/
theorem identical_zeroLoaded (ht : t.isStruct = false) :
    h.identical t.zeroLoaded v = h'.identical (.zeroOf t) v := by
  have hscalar : ∀ k : ScalarKind, ∀ u : Ty, u.storedAs? = some k →
      ∃ a : Scalar, u.zeroLoaded = .scalar a ∧ a.toNumber = (Scalar.zero k).toNumber := by
    intro k u hu
    rw [Ty.zeroLoaded, hu]
    cases k with
    | bool => exact ⟨_, rfl, rfl⟩
    | float k => exact ⟨_, rfl, rfl⟩
    | word k => cases k <;> exact ⟨_, rfl, rfl⟩
  cases t with
  | primitive k =>
    obtain ⟨a, ha, hnumber⟩ := hscalar k (.primitive k) rfl
    rw [ha]
    exact identical_scalar hnumber
  | enumeration path k interfaces fields =>
    obtain ⟨a, ha, hnumber⟩ := hscalar k (.enumeration path k interfaces fields) rfl
    rw [ha]
    exact identical_scalar hnumber
  | struct => cases ht
  | _ => rfl

/-- An integer is identical to zero if none of its bits is set. -/
theorem identical_ofInt32 (n : Int) : h.identical (.ofInt32 n) (.ofInt32 0) = (Scalar.lowBits 32 n == 0) := by
  have hvalue : Scalar.wordValue .i32 (Scalar.lowBits 32 n) = (Scalar.lowBits 32 n).toInt :=
    (Scalar.wordValue_eq .i32 _).trans (if_pos rfl)
  have hsame : h.identical (.ofInt32 n) (.ofInt32 0) = (some (compare (Scalar.lowBits 32 n).toInt 0) == some .eq) :=
    congrArg (fun z => some (compare z 0) == some Ordering.eq) hvalue
  rw [hsame, Bool.eq_iff_iff, beq_iff_eq, beq_iff_eq, Option.some_inj, Int.compare_eq_eq, ← BitVec.toInt_inj]
  rfl

end Heap

/-- What the opposite of a comparison does not say, the comparison says. -/
theorem Comparison.says_of_holds {c : Comparison} {x y : Value} {w : World} {held : Bool}
    (h : (Host.holds c.negated x y).run w = .ok held w) : c.Says (!held) x y := by
  unfold Says
  split
  · rw [Host.holds_words] at h
    cases h
    rw [c.accepts_negated, Bool.not_not]
  · trivial

namespace Condition

/-- The test of a condition. -/
def test : Condition → Test
  | .truth wanted => .truth wanted
  | .compared c | .operands _ c _ => .comparison c
  | .notZero o => if o.type.isStruct then .truth false else .comparison .notEqualTo
  | .emptiness _ wanted => .comparison (if wanted then .equalTo else .notEqualTo)

open Emit in
/-- The calls that **prepare** the test of a condition. -/
def prepare : Condition → Emit Unit
  | .truth _ | .compared _ => pure ()
  | .operands a _ b => do
    load a
    load b
  | .notZero o => do
    loadZero o.type
    if o.type.isStruct then do
      convertTop o.type .object
      load o
      convertTop o.type .object
      call Builtin.equals
    else load o
  | .emptiness l _ => loadTextLength l

/-- What the stack is once a condition is **prepared**. -/
def Prepared (m : Machine) (stack : List Value) : Condition → Prop
  | .truth _ | .compared _ => stack = m.frame.stack
  | .operands a _ b => ∃ x y, m.operand? a = some x ∧ m.operand? b = some y ∧ stack = y :: x :: m.frame.stack
  | .notZero o => ∃ v, m.operand? o = some v ∧
    if o.type.isStruct then ∃ zero, m.world.heap.Zeroed o.type v zero ∧ stack = .ofBool zero :: m.frame.stack
    else stack = v :: o.type.zeroLoaded :: m.frame.stack
  | .emptiness l _ => ∃ v z, m.operand? (.variable l) = some v ∧ stack = .ofInt32 0 :: z :: m.frame.stack ∧
    ((∃ x, v = .text x ∧ z = .ofInt32 (unitCount x)) ∨ ∃ a, v = .address a)

/-- **What a test says of a prepared condition**, the condition tells. -/
theorem tells_of_yields {c : Condition} {m e : Machine} {r : Bool} {rest : List Value}
    (h : c.Prepared m e.frame.stack) (hy : c.test.Yields e r rest) :
    c.Tells m r ∧ rest = m.frame.stack.drop c.taken := by
  cases c with
  | truth wanted =>
    obtain ⟨v, held, hstack, hv, hr⟩ := hy
    have hm : m.frame.stack = v :: rest := Eq.trans (Eq.symm h) hstack
    exact ⟨⟨v, rest, held, hm, hv, hr⟩, by rw [hm]; rfl⟩
  | compared c =>
    obtain ⟨x, y, held, hstack, hholds, rfl⟩ := hy
    have hm : m.frame.stack = y :: x :: rest := Eq.trans (Eq.symm h) hstack
    exact ⟨⟨x, y, rest, hm, Comparison.says_of_holds hholds⟩, by rw [hm]; rfl⟩
  | operands a c b =>
    obtain ⟨x, y, ha, hb, hm⟩ := h
    obtain ⟨x', y', held, hstack, hholds, rfl⟩ := hy
    cases hm.symm.trans hstack
    exact ⟨⟨x, y, ha, hb, Comparison.says_of_holds hholds⟩, rfl⟩
  | notZero o =>
    obtain ⟨v, hv, hm⟩ := h
    cases hstruct : o.type.isStruct with
    | true =>
      rw [if_pos hstruct] at hm
      obtain ⟨zero, hzero, hm⟩ := hm
      rw [test, if_pos hstruct] at hy
      obtain ⟨x, held, hstack, hheld, rfl⟩ := hy
      cases hm.symm.trans hstack
      obtain rfl : zero = held := by
        cases zero <;> exact Option.some.inj hheld
      exact ⟨⟨v, zero, hv, hzero, by cases zero <;> rfl⟩, rfl⟩
    | false =>
      rw [if_neg (by simp [hstruct])] at hm
      rw [test, if_neg (by simp [hstruct])] at hy
      obtain ⟨x, y, held, hstack, hholds, rfl⟩ := hy
      cases hm.symm.trans hstack
      have hsame : held = m.world.heap.identical (.zeroOf o.type) v := by
        cases hholds
        exact Heap.identical_zeroLoaded hstruct
      exact ⟨⟨v, _, hv, .plain hstruct, by rw [hsame]⟩, rfl⟩
  | emptiness l wanted =>
    obtain ⟨v, z, hv, hm, hz⟩ := h
    obtain ⟨_, _, held, hstack, hholds, rfl⟩ := hy
    cases hm.symm.trans hstack
    refine ⟨⟨v, hv, hz.imp_left ?_⟩, rfl⟩
    rintro ⟨x, hx, rfl⟩
    refine ⟨x, hx, ?_⟩
    cases wanted with
    | true =>
      have hsame : (!(e.world.heap.identical (.ofInt32 (unitCount x)) (.ofInt32 0))) = held := by
        cases hholds
        rfl
      rw [← hsame, Heap.identical_ofInt32]
      cases Scalar.lowBits 32 (unitCount x) == 0 <;> rfl
    | false =>
      have hsame : e.world.heap.identical (.ofInt32 (unitCount x)) (.ofInt32 0) = held := by
        cases hholds
        rfl
      rw [← hsame, Heap.identical_ofInt32]
      cases Scalar.lowBits 32 (unitCount x) == 0 <;> rfl

end Condition

/-! ## What is recorded -/

namespace Session

variable {s s' s'' : Session} {S S' : Machine → Prop} {Q Q' R : Machine → Machine → Prop}

/-- Code behind other code, when it does not matter where a run stops. -/
theorem Goes.andThen (h : s.Goes S Q s') (h' : s'.Goes S' Q' s'')
    (hR : ∀ m m₁ m₂, Q m m₁ → Q' m₁ m₂ → R m m₂) : s.Goes (fun _ => False) R s'' := by
  refine (h.trans h').imp (fun _ hs => hs.elim) ?_
  rintro m m₂ ⟨m₁, hm₁, hm₂⟩
  exact hR m m₁ m₂ hm₁ hm₂

/-- The declaration of a local is no code. -/
theorem goes_declared (s : Session) (T : Ty) (name : String) :
    s.Goes (fun _ => True) Machine.Alike (s.declared T name) where
  further := (Change.declare T name).grows.extends
  constructs := rfl
  locals := by simp [declared]
  labels := Nat.le_refl _
  attains _ _ m := .here ⟨rfl, .refl m⟩

end Session

namespace Exec

variable {m m' : Machine} {T : Ty} {v : Value} {rest : List Value} {i : Nat}

/-- A zero is written into a local that is there. -/
theorem run_zeroThrough (hstack : m.frame.stack = .address (.variable i) :: rest) (hi : i < m.frame.locals.size) :
    (Op.execute (.zeroThrough T)).run m = .ok () ((m.withStack rest).withLocal i (.zeroOf T)) := by
  have hpop : popAddress.run m = .ok (.variable i) (m.withStack rest) := by
    rw [popAddress, run_bind_ok (run_pop hstack)]
    rfl
  rw [Op.execute, run_bind_ok hpop, store, setLocal, run_bind, run_get]
  dsimp only
  rw [Machine.locals_withStack, checkSlot, if_pos hi]
  rfl

/-- Only into such a local a zero is written. -/
theorem of_zeroThrough (hstack : m.frame.stack = .address (.variable i) :: rest)
    (h : (Op.execute (.zeroThrough T)).run m = .ok () m') :
    i < m.frame.locals.size ∧ m' = (m.withStack rest).withLocal i (.zeroOf T) := by
  by_cases hi : i < m.frame.locals.size
  · cases (run_zeroThrough hstack hi).symm.trans h
    exact ⟨hi, rfl⟩
  · have hpop : popAddress.run m = .ok (.variable i) (m.withStack rest) := by
      rw [popAddress, run_bind_ok (run_pop hstack)]
      rfl
    rw [Op.execute, run_bind_ok hpop, store, setLocal, run_bind, run_get] at h
    dsimp only at h
    rw [Machine.locals_withStack, checkSlot, if_neg hi] at h
    cases h

/-- What boxes the top. An address is read through. -/
theorem of_box (hT : T.isStruct) (hstack : m.frame.stack = v :: rest)
    (h : (Op.execute (.box T)).run m = .ok () m') :
    ∃ w, ((∀ l, v ≠ .address l) → w = v) ∧ m' = Machine.withStack
      { m with world.heap := (m.world.heap.allocBox T w).2 } (.boxed (m.world.heap.allocBox T w).1 :: rest) := by
  have hfit : ∀ w, Value.fit T.storedAs? w = w := fun w => by
    rw [Heap.storedAs_of_isStruct hT, Value.fit_none]
  by_cases hv : ∃ l, v = .address l
  · obtain ⟨l, rfl⟩ := hv
    rw [Op.execute, run_bind_ok (run_pop hstack), run_bind] at h
    split at h
    · rename_i w m₁ hread
      have hread : (load l).run (m.withStack rest) = .ok w m₁ := hread
      rw [run_load] at hread
      split at hread
      · cases hread
        cases h
        exact ⟨w, fun hne => absurd rfl (hne l), by rw [hfit]; rfl⟩
      · cases hread
    · cases h
  · have hne : ∀ l, v ≠ .address l := fun l hl => hv ⟨l, hl⟩
    rw [run_box T hstack hne, hfit] at h
    cases h
    exact ⟨v, fun _ => rfl, rfl⟩

/-- Two boxes are compared. -/
theorem run_equals {a b : BoxId} (hstack : m.frame.stack = .boxed b :: .boxed a :: rest) :
    (Op.execute (.call Builtin.equals)).run m =
      .ok () (m.withStack (.ofBool (m.world.heap.equal (.boxed a) (.boxed b)) :: rest)) := by
  obtain ⟨⟨args, locals, stack⟩, world⟩ := m
  obtain rfl : stack = .boxed b :: .boxed a :: rest := hstack
  have hfit : Value.fit (some .bool) (.ofBool (world.heap.equal (.boxed a) (.boxed b))) =
      .ofBool (world.heap.equal (.boxed a) (.boxed b)) := by
    cases world.heap.equal (.boxed a) (.boxed b) <;> rfl
  have hrun : (Op.execute (.call Builtin.equals)).run ⟨⟨args, locals, .boxed b :: .boxed a :: rest⟩, world⟩ =
      .ok () ⟨⟨args, locals, Value.fit (some .bool) (.ofBool (world.heap.equal (.boxed a) (.boxed b))) :: rest⟩,
        world⟩ :=
    rfl
  rw [hrun, hfit]
  rfl

theorem acts_equals (k : Nat) : (Op.execute (.call Builtin.equals)).Acts k 2 1 := by
  refine acts_call_pure (g := Builtin.equals) rfl (fun args => Quiet.sparesHeap ?_) k
  exact (quiet_argument args 0 2).bind fun a => (quiet_argument args 1 2).bind fun b =>
    quiet_heap.bind fun _ => quiet_pure _

theorem acts_textLength (k : Nat) : (Op.execute (.call Builtin.textLength)).Acts k 1 1 := by
  refine acts_call_pure (g := Builtin.textLength) rfl (fun args => Quiet.sparesHeap ?_) k
  exact (quiet_argument args 0 1).bind fun v => (quiet_expect _ _ _).bind fun _ => quiet_pure _

/-- The length is that of a **string**, which is on the stack or at an address. -/
theorem of_textLength (hstack : m.frame.stack = v :: rest)
    (h : (Op.execute (.call Builtin.textLength)).run m = .ok () m') :
    ∃ z, m'.frame.stack = z :: rest ∧ ((∃ x, v = .text x ∧ z = .ofInt32 (unitCount x)) ∨ ∃ a, v = .address a) := by
  have hone : m.frame.stack = [v] ++ rest := hstack
  obtain ⟨zs, hlength, hstack'⟩ := (acts_textLength 0).stack hone rfl h
  obtain ⟨z, rfl⟩ := List.length_eq_one_iff.1 hlength
  refine ⟨z, hstack', ?_⟩
  obtain ⟨⟨args, locals, stack⟩, world⟩ := m
  obtain rfl : stack = v :: rest := hstack
  cases v with
  | address a => exact .inr ⟨a, rfl⟩
  | text x =>
    have hfit : (Scalar.i32 (unitCount x)).convert .i32 = .i32 (unitCount x) :=
      (Scalar.convert_eq ..).trans (Scalar.wrap_wordValue_lowBits (Nat.le_refl _) _)
    have hrun : (Op.execute (.call Builtin.textLength)).run ⟨⟨args, locals, .text x :: rest⟩, world⟩ =
        .ok () ⟨⟨args, locals, .scalar ((Scalar.i32 (unitCount x)).convert .i32) :: rest⟩, world⟩ := rfl
    rw [hfit] at hrun
    cases hrun.symm.trans h
    cases hstack'
    exact .inl ⟨x, rfl, rfl⟩
  | _ => cases h

end Exec

namespace Conversion

variable {T : Ty}

/-- What is of a value type is put into a box where an object is expected. -/
theorem between_object (hT : T.isValue) : between T .object false = .ok (.box T false) := by
  have hne : ¬ T == .object := by
    intro heq
    have hkind : T.kind = .object := (Ty.beq_iff.1 heq).1
    rw [Ty.isValue, hkind] at hT
    cases hT
  rw [between, if_neg hne, if_neg (by decide), toReference, if_pos (Ty.object_accepts T), if_pos hT]

end Conversion

namespace Emit

variable {level : TraceDetail} {s s' : Session} {k : Nat} {T : Ty} {o : Operand}

/-- A value on top of what was on the stack before. -/
def Pushes (k : Nat) (v : Value) (m m' : Machine) : Prop := m.Aside k m' ∧ m'.frame.stack = v :: m.frame.stack

/-- The address of a local of a value type is loaded. -/
theorem goes_loadLocalAddress {l : Local} (hl : l.type.isValue) (hk : k ≤ s.locals.size)
    (hlabels : 0 < s.labels.entries.size) (h : ((loadLocalAddress l).run (.ofLevel level)).run s = .ok () s') :
    s.Goes (fun m => l.index < m.frame.locals.size) (Pushes k (.address (.variable l.index))) s' := by
  obtain ⟨name, s₁, hname, h⟩ := run_bind_eq_ok.1 h
  rw [run_nameOf] at hname
  cases hname
  obtain ⟨u, s₁, hnote, h⟩ := run_bind_eq_ok.1 h
  obtain ⟨u, s₂, hop, hprobe⟩ := run_bind_eq_ok.1 h
  rw [run_op] at hop
  cases hop
  have hnote := tells_note hnote
  have hshow := goes_probe_address hl (k := k) (s := s₁.recorded [.addressLocal l.index])
    (by rw [Session.locals_recorded, hnote.locals]; exact hk) (Nat.lt_of_lt_of_le hlabels hnote.labels) hprobe
  refine ((hnote.goes.trans (s₁.goes_recorded _)).trans hshow).imp ?_ ?_
  · rintro m hl
    refine ⟨⟨trivial, fun m₁ _ => ⟨_, rfl⟩⟩, ?_⟩
    rintro m₂ ⟨m₁, halike, hrun⟩
    cases hrun
    have hlocal : m₁.frame.locals[l.index]? = some m.frame.locals[l.index] := by
      rw [halike.frame]
      exact Array.getElem?_eq_getElem hl
    exact ⟨_, m.frame.locals[l.index], _, rfl, by rw [Machine.read, Machine.read.slot, hlocal]⟩
  · rintro m m₃ ⟨m₂, ⟨m₁, halike, hrun⟩, hinterlude⟩
    cases hrun
    exact ⟨(Machine.Aside.of_alike k halike).trans ((Machine.Aside.withStack k m₁ _).trans hinterlude.aside),
      hinterlude.stack.trans (congrArg (_ :: ·) halike.stack)⟩

/-- A new local is the last one. -/
theorem goes_newLocal {t : Tracer} {name : String} {l : Local} (h : ((newLocal T name).run t).run s = .ok l s') :
    l = ⟨s.locals.size, T⟩ ∧ s'.locals.size = s.locals.size + 1 ∧ s.Goes (fun _ => True) Machine.Alike s' := by
  rw [run_newLocal] at h
  cases h
  refine ⟨rfl, by simp [Session.declared],
    ((s.goes_declared T name).trans (Session.tells_written _ t _).goes).imp (fun _ _ => ⟨trivial, fun _ _ => trivial⟩) ?_⟩
  rintro m m₂ ⟨m₁, h, h'⟩
  exact h.trans h'

/-- The zero of a type that is no struct is loaded as a constant. -/
theorem goes_loadZero_plain (hT : T.isStruct = false) (h : ((loadZero T).run (.ofLevel level)).run s = .ok () s') :
    s.Goes (fun _ => True) (Pushes k T.zeroLoaded) s' := by
  rw [loadZero] at h
  rw [Ty.zeroLoaded]
  cases hkind : T.storedAs? with
  | none =>
    have hvalue : T.isValue = false := by
      cases T with
      | primitive _ => cases hkind
      | enumeration _ _ _ _ => cases hkind
      | struct => cases hT
      | _ => rfl
    rw [hkind] at h
    dsimp only at h
    rw [hvalue] at h
    exact goes_push h
  | some kind =>
    rw [hkind] at h
    cases kind with
    | bool => exact goes_push h
    | float K => exact (goes_loadScalar h).imp (fun _ h => h) fun _ _ h => by cases K <;> exact h
    | word K => cases K <;> exact goes_push h

/-- A struct can be shown. -/
theorem shows_struct {h : Heap} (hT : T.isStruct) : h.Shows T (.zeroOf T) := by
  refine (Heap.shows_of_not_array ?_).2 fun l => Value.zeroOf_ne_address l
  rintro e rfl
  cases hT

/-- The zero of a **struct** is that of a local of its own. -/
theorem goes_loadZero_struct (hT : T.isStruct) (hlabels : 0 < s.labels.entries.size)
    (h : ((loadZero T).run (.ofLevel level)).run s = .ok () s') :
    s.Goes (fun _ => True) (Pushes s.locals.size (.zeroOf T)) s' := by
  have hzero : loadZero T = (do
      let zero ← newLocal T "zero"
      loadByAddress (.variable zero)
      zeroThrough T
      load (.variable zero)) := by
    cases T <;> first | rfl | cases hT
  have hvalue := Heap.isValue_of_isStruct hT
  rw [hzero] at h
  obtain ⟨l, s₁, hnew, h⟩ := run_bind_eq_ok.1 h
  obtain ⟨rfl, hsize, hdeclared⟩ := goes_newLocal hnew
  obtain ⟨u, s₂, haddress, h⟩ := run_bind_eq_ok.1 h
  obtain ⟨u, s₃, hwrite, hload⟩ := run_bind_eq_ok.1 h
  rw [loadByAddress, if_pos hvalue] at haddress
  have haddress := goes_loadLocalAddress (k := s.locals.size + 1) hvalue (Nat.le_of_eq hsize.symm)
    (Nat.lt_of_lt_of_le hlabels hdeclared.labels) haddress
  have hwrite := goes_traced hwrite
  have hfront := hdeclared.trans (haddress.trans hwrite)
  have hlocals := Nat.le_trans (Nat.le_of_eq hsize.symm) (haddress.trans hwrite).locals
  have hload := goes_load (k := s.locals.size + 1) hlocals (Nat.lt_of_lt_of_le hlabels hfront.labels) hload
  -- the local is written, and all below it is as it was
  have hwritten : ∀ m m₃ : Machine, (∃ m₁, m.Alike m₁ ∧ ∃ m₂,
      Pushes (s.locals.size + 1) (.address (.variable s.locals.size)) m₁ m₂ ∧
      ∃ m₂', m₂.Alike m₂' ∧ (Op.execute (.zeroThrough T)).run m₂' = .ok () m₃) →
      m.Aside s.locals.size m₃ ∧ m₃.frame.stack = m.frame.stack ∧
        m₃.frame.locals[s.locals.size]? = some (.zeroOf T) := by
    rintro m m₃ ⟨m₁, hm₁, m₂, ⟨haside, hstack⟩, m₂', halike, hrun⟩
    obtain ⟨hi, rfl⟩ := Exec.of_zeroThrough (halike.stack.trans hstack) hrun
    refine ⟨(Machine.Aside.of_alike _ hm₁).trans ((haside.fewer (Nat.le_succ _)).trans
      ((Machine.Aside.of_alike _ halike).trans ?_)), hm₁.stack, Machine.getElem?_withLocal_self hi⟩
    exact ⟨rfl, Machine.size_withLocal, fun i hi => Machine.getElem?_withLocal_ne (Nat.ne_of_gt hi), .refl _⟩
  refine ((hfront.trans hload).sized fun m hm _ => ?_).imp (fun _ h => h) ?_
  · have hi : s.locals.size < m.frame.locals.size := Nat.lt_of_lt_of_le (Nat.lt_of_lt_of_le (by omega) hload.locals) hm
    refine ⟨⟨trivial, fun m₁ hm₁ => ⟨by rwa [hm₁.frame], fun m₂ hm₂ m₂' halike => ⟨_, Exec.run_zeroThrough
      (halike.stack.trans hm₂.2) (by rwa [halike.frame, hm₂.1.size, hm₁.frame])⟩⟩⟩, fun m₃ hm₃ => ?_⟩
    obtain ⟨-, -, hv⟩ := hwritten m m₃ hm₃
    refine ⟨_, hv, ?_⟩
    rintro - l hl
    cases hl
    exact shows_struct hT
  · rintro m m₄ ⟨m₃, hm₃, haside', v, hv, hstack'⟩
    obtain ⟨haside, hstack, hzero⟩ := hwritten m m₃ hm₃
    cases hzero.symm.trans hv
    exact ⟨haside.trans (haside'.fewer (Nat.le_succ _)), hstack'.trans (congrArg (_ :: ·) hstack)⟩

/-- The top is put into a new **box**. -/
def Boxes (k : Nat) (T : Ty) (m m' : Machine) : Prop :=
  m.Aside k m' ∧ ∀ v rest, m.frame.stack = v :: rest → ∃ w b, ((∀ l, v ≠ .address l) → w = v) ∧
    m.world.heap.boxes.size ≤ b.index ∧ b.index < m'.world.heap.boxes.size ∧
    m'.world.heap.boxCell b = ⟨T, w⟩ ∧ m'.frame.stack = .boxed b :: rest

theorem goes_convertTop_object (hT : T.isStruct) (h : ((convertTop T .object).run (.ofLevel level)).run s = .ok () s') :
    s.Goes (fun m => ∃ v rest, m.frame.stack = v :: rest ∧ ∀ l, v ≠ .address l) (Boxes k T) s' := by
  have hplan := Conversion.between_object (Heap.isValue_of_isStruct hT)
  have hconvert : convertTop T .object = applyConversion (.box T false) := by
    rw [convertTop, convert, hplan]
    rfl
  rw [hconvert] at h
  refine (goes_traced h).imp ?_ ?_
  · rintro m ⟨v, rest, hstack, hv⟩ m₁ halike
    exact ⟨_, Exec.run_box T (halike.stack.trans hstack) hv⟩
  rintro m m' ⟨m₁, halike, hrun⟩
  refine ⟨(Machine.Aside.of_alike k halike).trans ((Exec.acts_box k T).ok hrun), fun v rest hstack => ?_⟩
  obtain ⟨w, hw, rfl⟩ := Exec.of_box hT (halike.stack.trans hstack) hrun
  rw [← halike.heap]
  refine ⟨w, _, hw, Nat.le_refl _, ?_, Heap.boxCell_allocBox_new w, rfl⟩
  simp [Heap.allocBox]

/-- Both boxes are compared. -/
theorem goes_equals (h : ((call Builtin.equals).run (.ofLevel level)).run s = .ok () s') :
    s.Goes (fun m => ∃ a b rest, m.frame.stack = .boxed b :: .boxed a :: rest)
      (fun m m' => m.Aside k m' ∧ ∀ a b rest, m.frame.stack = .boxed b :: .boxed a :: rest →
        m'.frame.stack = .ofBool (m.world.heap.equal (.boxed a) (.boxed b)) :: rest) s' := by
  refine (goes_traced h).imp ?_ ?_
  · rintro m ⟨a, b, rest, hstack⟩ m₁ halike
    exact ⟨_, Exec.run_equals (halike.stack.trans hstack)⟩
  rintro m m' ⟨m₁, halike, hrun⟩
  refine ⟨(Machine.Aside.of_alike k halike).trans ((Exec.acts_equals k).ok hrun), fun a b rest hstack => ?_⟩
  cases (Exec.run_equals (halike.stack.trans hstack)).symm.trans hrun
  rw [halike.heap]
  rfl

theorem goes_textLength (h : ((call Builtin.textLength).run (.ofLevel level)).run s = .ok () s') :
    s.Goes (fun _ => False) (fun m m' => m.Aside k m' ∧ ∀ v rest, m.frame.stack = v :: rest →
      ∃ z, m'.frame.stack = z :: rest ∧ ((∃ x, v = .text x ∧ z = .ofInt32 (unitCount x)) ∨ ∃ a, v = .address a)) s' := by
  refine (goes_traced h).imp (fun _ hs => hs.elim) ?_
  rintro m m' ⟨m₁, halike, hrun⟩
  refine ⟨(Machine.Aside.of_alike k halike).trans ((Exec.acts_textLength k).ok hrun), fun v rest hstack => ?_⟩
  exact Exec.of_textLength (halike.stack.trans hstack) hrun

/-- A condition is **prepared**: what it is about is on the stack. -/
def Prepares (k : Nat) (c : Condition) (m m' : Machine) : Prop := m.Aside k m' ∧ c.Prepared m m'.frame.stack

/-- Two operands are loaded. -/
theorem goes_operands {a b : Operand} {c : Comparison} (hb : b.Below k) (hk : k ≤ s.locals.size)
    (hlabels : 0 < s.labels.entries.size)
    (h : ((Condition.operands a c b).prepare.run (.ofLevel level)).run s = .ok () s') :
    s.Goes (fun _ => False) (Prepares k (.operands a c b)) s' := by
  obtain ⟨u, s₁, hfirst, hsecond⟩ := run_bind_eq_ok.1 h
  have hfirst := goes_load hk hlabels hfirst
  have hsecond := goes_load (Nat.le_trans hk hfirst.locals) (Nat.lt_of_lt_of_le hlabels hfirst.labels) hsecond
  refine hfirst.andThen hsecond ?_
  rintro m m₁ m₂ ⟨haside, x, hx, hstack⟩ ⟨haside', y, hy, hstack'⟩
  exact ⟨haside.trans haside', x, y, hx, (haside.operand hb).symm.trans hy, by rw [hstack', hstack]⟩

/-- A machine has an operand that **can be asked** about: it can be loaded, and it is no address. -/
def Askable (level : TraceDetail) (o : Operand) (m : Machine) : Prop :=
  ∃ v, m.operand? o = some v ∧ (level = .full → ∀ l, o = .variable l → m.world.heap.Shows l.type v) ∧
    ∀ l, v ≠ .address l

/-- What is aside of an operand does not matter. -/
theorem Askable.aside {m m' : Machine} (h : Askable level o m) (hm : m.Aside k m') (ho : o.Below k) :
    Askable level o m' := by
  obtain ⟨v, hv, hshows, hne⟩ := h
  exact ⟨v, (hm.operand ho).trans hv, fun hfull l hl => (hshows hfull l hl).adds hm.heap, hne⟩

theorem Askable.shown {m : Machine} (h : Askable level o m) : Shown level o m := by
  obtain ⟨v, hv, hshows, -⟩ := h
  exact ⟨v, hv, hshows⟩

/-- A zero and an operand are loaded. -/
theorem goes_notZero_plain (ht : o.type.isStruct = false) (ho : o.Below k) (hk : k ≤ s.locals.size)
    (hlabels : 0 < s.labels.entries.size)
    (h : ((Condition.notZero o).prepare.run (.ofLevel level)).run s = .ok () s') :
    s.Goes (Askable level o) (Prepares k (.notZero o)) s' := by
  rw [Condition.prepare] at h
  obtain ⟨u, s₁, hzero, h⟩ := run_bind_eq_ok.1 h
  rw [if_neg (by simp [ht])] at h
  have hzero := goes_loadZero_plain (k := k) ht hzero
  have hload := goes_load (Nat.le_trans hk hzero.locals) (Nat.lt_of_lt_of_le hlabels hzero.labels) h
  refine (hzero.trans hload).imp (fun m hm => ⟨trivial, fun m₁ hm₁ => (hm.aside hm₁.1 ho).shown⟩) ?_
  rintro m m₂ ⟨m₁, ⟨haside, hstack⟩, haside', v, hv, hstack'⟩
  refine ⟨haside.trans haside', v, (haside.operand ho).symm.trans hv, ?_⟩
  rw [if_neg (by simp [ht]), hstack', hstack]

/-- A zero and an operand are loaded, put into boxes, and compared. -/
theorem goes_notZero_struct (ht : o.type.isStruct) (ho : o.Below s.locals.size) (hlabels : 0 < s.labels.entries.size)
    (h : ((Condition.notZero o).prepare.run (.ofLevel level)).run s = .ok () s') :
    s.Goes (Askable level o) (Prepares s.locals.size (.notZero o)) s' := by
  rw [Condition.prepare] at h
  obtain ⟨u, s₁, hzero, h⟩ := run_bind_eq_ok.1 h
  rw [if_pos ht] at h
  obtain ⟨u, s₂, hfirst, h⟩ := run_bind_eq_ok.1 h
  obtain ⟨u, s₃, hload, h⟩ := run_bind_eq_ok.1 h
  obtain ⟨u, s₄, hsecond, hequals⟩ := run_bind_eq_ok.1 h
  have hfront := (goes_loadZero_struct ht hlabels hzero).trans (goes_convertTop_object (k := s.locals.size) ht hfirst)
  have hload := goes_load hfront.locals (Nat.lt_of_lt_of_le hlabels hfront.labels) hload
  have hbehind := hload.trans ((goes_convertTop_object (k := s.locals.size) ht hsecond).trans
    (goes_equals (k := s.locals.size) hequals))
  have hnotAddress : ∀ l, Value.zeroOf o.type ≠ .address l := fun l => Value.zeroOf_ne_address l
  refine (hfront.trans hbehind).imp ?_ ?_
  · intro m hm
    refine ⟨⟨trivial, fun m₁ hm₁ => ⟨_, _, hm₁.2, hnotAddress⟩⟩, ?_⟩
    rintro m₂ ⟨m₁, ⟨haside₁, hstack₁⟩, haside₂, hbox⟩
    have haskable := hm.aside (haside₁.trans haside₂) ho
    obtain ⟨w, a, hw, -, -, -, hstack₂⟩ := hbox _ _ hstack₁
    refine ⟨haskable.shown, fun m₃ hm₃ => ?_⟩
    obtain ⟨v, hv, -, hne⟩ := haskable
    obtain ⟨haside₃, v', hv', hstack₃⟩ := hm₃
    cases hv.symm.trans hv'
    refine ⟨⟨v, _, hstack₃, hne⟩, fun m₄ hm₄ => ?_⟩
    obtain ⟨w', b, -, -, -, -, hstack₄⟩ := hm₄.2 _ _ hstack₃
    exact ⟨a, b, _, by rw [hstack₄, hstack₂]⟩
  rintro m m₅ ⟨m₂, ⟨m₁, ⟨haside₁, hstack₁⟩, haside₂, hbox⟩,
    m₃, ⟨haside₃, v, hv, hstack₃⟩, m₄, ⟨haside₄, hbox'⟩, haside₅, hequal⟩
  -- the boxes are new, and the second one is not the first
  obtain ⟨w, a, hw, -, ha, hcell, hstack₂⟩ := hbox _ _ hstack₁
  obtain ⟨w', b, hw', hb, -, hcell', hstack₄⟩ := hbox' _ _ hstack₃
  rw [hstack₂] at hstack₄
  have hkept := haside₃.heap.trans haside₄.heap
  have hab : a ≠ b := by
    rintro rfl
    exact absurd ha (Nat.not_lt.2 (Nat.le_trans haside₃.heap.size hb))
  have hzeroed : w = .zeroOf o.type := hw hnotAddress
  rw [hzeroed] at hcell
  have hall := haside₁.trans (haside₂.trans (haside₃.trans haside₄))
  refine ⟨hall.trans haside₅, v, ((haside₁.trans haside₂).operand ho).symm.trans hv, ?_⟩
  rw [if_pos ht, hequal _ _ _ hstack₄]
  exact ⟨_, .boxed ht hall.heap hab ((hkept.boxCell ha).trans hcell) hcell' hw', rfl⟩

/-- An operand is compared with a zero. -/
theorem goes_notZero (ho : o.Below s.locals.size) (hlabels : 0 < s.labels.entries.size)
    (h : ((Condition.notZero o).prepare.run (.ofLevel level)).run s = .ok () s') :
    s.Goes (Askable level o) (Prepares s.locals.size (.notZero o)) s' := by
  cases ht : o.type.isStruct with
  | true => exact goes_notZero_struct ht ho hlabels h
  | false => exact goes_notZero_plain ht ho (Nat.le_refl _) hlabels h

/-- The length of a string and zero are loaded. -/
theorem goes_emptiness {l : Local} {wanted : Bool} (hk : k ≤ s.locals.size) (hlabels : 0 < s.labels.entries.size)
    (h : ((Condition.emptiness l wanted).prepare.run (.ofLevel level)).run s = .ok () s') :
    s.Goes (fun _ => False) (Prepares k (.emptiness l wanted)) s' := by
  obtain ⟨u, s₁, hload, h⟩ := run_bind_eq_ok.1 h
  obtain ⟨u, s₂, hlength, hzero⟩ := run_bind_eq_ok.1 h
  have hload := goes_load (o := .variable l) hk hlabels hload
  refine hload.andThen ((goes_textLength (k := k) hlength).trans (goes_push (k := k) hzero)) ?_
  rintro m m₁ m₃ ⟨haside₁, v, hv, hstack₁⟩ ⟨m₂, ⟨haside₂, hlengthOf⟩, haside₃, hstack₃⟩
  obtain ⟨z, hstack₂, hz⟩ := hlengthOf _ _ hstack₁
  exact ⟨haside₁.trans (haside₂.trans haside₃), v, z, hv, by rw [hstack₃, hstack₂], hz⟩

/-- **Every condition is prepared.** -/
theorem goes_prepare {c : Condition} (howns : ∀ l ∈ c.locals, s.Owns l) (hlabels : 0 < s.labels.entries.size)
    (h : (c.prepare.run (.ofLevel level)).run s = .ok () s') :
    s.Goes (fun _ => False) (Prepares s.locals.size c) s' := by
  cases c with
  | truth wanted =>
    cases h
    exact (Session.Tells.refl s).goes.imp (fun _ h => h.elim) fun _ _ h => ⟨.of_alike _ h, h.stack⟩
  | compared c =>
    cases h
    exact (Session.Tells.refl s).goes.imp (fun _ h => h.elim) fun _ _ h => ⟨.of_alike _ h, h.stack⟩
  | operands a c b =>
    obtain ⟨-, hb⟩ := List.forall_mem_append.1 howns
    exact goes_operands (Operand.below_of_owns hb) (Nat.le_refl _) hlabels h
  | notZero o => exact (goes_notZero (Operand.below_of_owns howns) hlabels h).imp (fun _ h => h.elim) fun _ _ h => h
  | emptiness l wanted => exact goes_emptiness (Nat.le_refl _) hlabels h

/-- The opposite of a test is jumped on. -/
theorem jumped_of_skip {test : Test} {t : Tracer} {l : Label} (h : (test.skip.run t).run s = .ok l s') :
    ∃ s₁, s.Tells s₁ ∧ s' = s₁.jumped (test.jump l) := by
  cases test with
  | comparison c =>
    obtain ⟨l', s₁, hnew, h⟩ := run_bind_eq_ok.1 h
    obtain ⟨u, s₂, hnote, h⟩ := run_bind_eq_ok.1 h
    obtain ⟨u, s₃, hjump, hdone⟩ := run_bind_eq_ok.1 h
    cases hdone
    exact ⟨s₂, (tells_newLabel hnew).trans (tells_note hnote), (jumped_of_jump hjump).2⟩
  | truth wanted =>
    cases wanted <;>
    · obtain ⟨l', s₁, hnew, h⟩ := run_bind_eq_ok.1 h
      obtain ⟨u, s₂, hjump, hdone⟩ := run_bind_eq_ok.1 h
      cases hdone
      obtain ⟨s₂, hline, -, hjumped⟩ := tells_jump hjump
      exact ⟨s₂, (tells_newLabel hnew).trans hline, hjumped⟩

/-- The label that is jumped to is yet to be marked. -/
theorem ahead_of_skip {test : Test} {t : Tracer} {l : Label} (h : (test.skip.run t).run s = .ok l s') :
    ¬ s'.labels.Marked l := by
  have hjumped : ∀ {s₁ s₂ s₃ : Session} {text : String} {j : Jump Label},
      (newLabel.run t).run s = .ok l s₁ → ((note text).run t).run s₁ = .ok () s₂ →
        ((jump j).run t).run s₂ = .ok () s₃ → ¬ s₃.labels.Marked l := by
    rintro s₁ s₂ s₃ text j hnew hnote hjump ⟨q, hq⟩
    cases hnew
    rw [run_note] at hnote
    cases hnote
    obtain ⟨-, rfl⟩ := jumped_of_jump hjump
    have hq := Marks.markedAt_target.1 hq
    rw [Session.labels_written] at hq
    -- the label has just been defined, so it has no position
    obtain ⟨-, e, he, -⟩ := Marks.markedAt_define.1 hq
    exact absurd (Array.getElem?_eq_some_iff.1 he).1 (Nat.lt_irrefl _)
  cases test with
  | comparison c =>
    obtain ⟨l', s₁, hnew, h⟩ := run_bind_eq_ok.1 h
    obtain ⟨u, s₂, hnote, h⟩ := run_bind_eq_ok.1 h
    obtain ⟨u, s₃, hjump, hdone⟩ := run_bind_eq_ok.1 h
    cases hdone
    exact hjumped hnew hnote hjump
  | truth wanted =>
    cases wanted <;>
    · obtain ⟨l', s₁, hnew, h⟩ := run_bind_eq_ok.1 h
      obtain ⟨u, s₂, h, hdone⟩ := run_bind_eq_ok.1 h
      obtain ⟨u, s₃, hnote, hjump⟩ := run_bind_eq_ok.1 h
      cases hdone
      exact hjumped hnew hnote hjump

end Emit

/-! ## Asking for a condition -/

/-- What is prepared for a machine is prepared for one that is alike. -/
theorem Condition.Prepared.alike {c : Condition} {m m₁ : Machine} {stack : List Value} (h : c.Prepared m₁ stack)
    (hm : m.Alike m₁) : c.Prepared m stack := by
  have hoperand : ∀ o, m₁.operand? o = m.operand? o := fun o => by
    cases o <;> simp only [Machine.operand?, hm.frame]
  cases c <;> simpa only [Prepared, hoperand, hm.stack, hm.heap] using h

namespace Procedure

/-- The code between two positions **asks** for a condition. It takes what is taken of the stack, and if it does not
stop, it gets to its end if the condition holds, and to a label if it does not. -/
def Asks (p : Procedure) (f : Session) (c : Condition) (k : Nat) (otherwise : Label) (first last : Nat) : Prop :=
  ∀ m, p.Attains (Stretch first last) False first m fun n e => ∃ r, c.Tells m r ∧
    (if r then n = last else f.labels.MarkedAt otherwise n) ∧ m.Aside k e ∧ e.frame.stack = m.frame.stack.drop c.taken

variable {p : Procedure} {f a s s₁ s₂ : Session} {c : Condition} {k : Nat} {otherwise : Label}

/-- What prepares a condition and jumps on the opposite of its test asks for it, and stops only where it cannot be
prepared or tested. -/
theorem Fits.asks_if {S : Machine → Prop} (hp : p.Fits f) (hfirst : a.Tells s)
    (hprepares : s.Goes S (Emit.Prepares k c) s₁) (hlast : s₁.Tells s₂)
    (hf : (s₂.jumped (c.test.jump otherwise)).Extends f) (hS : ∀ m m', m.Alike m' → S m → S m')
    (htest : ∀ m e q, S m → c.Prepared m e.frame.stack → ∃ target e', (c.test.jump q).follow.run e = .ok target e')
    (m : Machine) :
    p.Attains (Stretch a.code.size (s₂.code.size + 1)) (S m ∧ s₂.locals.size ≤ m.frame.locals.size) a.code.size m
      fun n e => ∃ r, c.Tells m r ∧ (if r then n = s₂.code.size + 1 else f.labels.MarkedAt otherwise n) ∧
        m.Aside k e ∧ e.frame.stack = m.frame.stack.drop c.taken := by
  have hgoes : a.Goes S (Emit.Prepares k c) s₂ := by
    refine ((hfirst.goes.trans hprepares).trans hlast.goes).imp
      (fun m hm => ⟨⟨trivial, fun m₁ halike => hS m m₁ halike hm⟩, fun _ _ => trivial⟩) ?_
    rintro m m₃ ⟨m₂, ⟨m₁, halike, haside, hprepared⟩, halike'⟩
    refine ⟨(Machine.Aside.of_alike k halike).trans (haside.trans (.of_alike k halike')), ?_⟩
    rw [halike'.stack]
    exact hprepared.alike halike
  have hsize := hgoes.further.size
  obtain ⟨q, hq, hcode⟩ := hp.goes (c.test.mapTargets_jump otherwise _) hf
  refine ((hgoes.attains hp ((s₂.extends_jumped _).trans hf) m).imp (fun i hi => ⟨hi.1, Nat.lt_succ_of_lt hi.2⟩)
    (fun h => h) fun _ _ h => h).bind ?_
  rintro n e ⟨rfl, haside, hprepared⟩
  refine .jump ⟨hsize, Nat.lt_succ_self _⟩ hcode (fun target m' hrun => ?_) fun hs => htest m e q hs.1 hprepared
  obtain ⟨r, rest, hyields, rfl, rfl⟩ := Test.yields_of_follow hrun
  obtain ⟨htells, hrest⟩ := Condition.tells_of_yields hprepared hyields
  refine .here ⟨r, htells, ?_, haside.trans (.withStack k _ _), hrest⟩
  cases r with
  | true => rfl
  | false => exact hq

@[inherit_doc Fits.asks_if]
theorem Fits.asks (hp : p.Fits f) (hfirst : a.Tells s) (hprepares : s.Goes (fun _ => False) (Emit.Prepares k c) s₁)
    (hlast : s₁.Tells s₂) (hf : (s₂.jumped (c.test.jump otherwise)).Extends f) :
    p.Asks f c k otherwise a.code.size (s₂.code.size + 1) := fun m =>
  (hp.asks_if hfirst hprepares hlast hf (fun _ _ _ h => h) (fun _ _ _ h => h.elim) m).imp (fun _ h => h) False.elim
    fun _ _ h => h

end Procedure

end Stackwright
