import Stackwright.Builtin
import Stackwright.Proofs.Value.Sameness

/-! # Laws of equality

A comparison is computed with a budget of boxes to open. On comparable values the budget lasts, and the comparison
finds what the rules say. So it has their laws: every value is equal to itself, the order does not matter, and two
values that are equal to a third one are equal to each other unless boxes of different types clash in them. The
method that compares objects sees to null first, and has the same laws.

* **`Heap.same_of_equalWith`** — what is found equal on any budget is equal by the rules.
* **`Heap.equalWith_of_same`** — what is equal by the rules is found equal on a budget that lasts.
* **`Heap.equality_laws`** — the laws of structural equality, and of the method that compares objects. -/

namespace Stackwright

/-! ## Comparing by shape -/

namespace Value

variable {boxes : Value → Value → Bool} {a b v : Value} {t u : Ty} {xs ys : List Value}

theorem equalWith_boxed_left (i : BoxId) (v : Value) : equalWith boxes (.boxed i) v = boxes (.boxed i) v := by
  rw [equalWith]

theorem equalWith_boxed_right (hv : ∀ i, v ≠ .boxed i) (i : BoxId) :
    equalWith boxes v (.boxed i) = boxes v (.boxed i) := by
  cases v with
  | boxed j => exact absurd rfl (hv j)
  | _ => rfl

theorem equalWith_struct :
    equalWith boxes (.struct t xs) (.struct u ys) = (t == u && equalAllWith boxes xs ys) := by
  rw [equalWith]

/-- Away from boxes and structs no box is opened. -/
theorem equalWith_of_plainEqual (hab : plainEqual a b = true) : equalWith boxes a b = true := by
  obtain ⟨ha, hb, hstruct⟩ := ne_of_plainEqual hab
  cases a with
  | boxed i => exact absurd rfl (ha i)
  | struct t xs => exact absurd rfl (hstruct t xs)
  | _ =>
    cases b with
    | boxed i => exact absurd rfl (hb i)
    | _ => exact hab

/-- Lists of values are equal **position by position**. -/
theorem equalAllWith_iff :
    equalAllWith boxes xs ys = true ↔ xs.length = ys.length ∧
      ∀ (i : Nat) (x y : Value), xs[i]? = some x → ys[i]? = some y → equalWith boxes x y = true := by
  induction xs generalizing ys with
  | nil => cases ys <;> simp [equalAllWith]
  | cons x xs ih =>
    cases ys with
    | nil => simp [equalAllWith]
    | cons y ys =>
      rw [equalAllWith, Bool.and_eq_true, ih]
      constructor
      · rintro ⟨hxy, hlength, hall⟩
        refine ⟨by simpa using hlength, fun i v w hv hw => ?_⟩
        cases i with
        | zero =>
          cases hv
          cases hw
          exact hxy
        | succ i => exact hall i v w hv hw
      · rintro ⟨hlength, hall⟩
        exact ⟨hall 0 x y rfl rfl, by simpa using hlength, fun i v w hv hw => hall (i + 1) v w hv hw⟩

end Value

namespace Heap

variable {h : Heap} {a b c v w : Value} {k m n : Nat}

/-! ## Equality by rules is what is computed -/

/-- Two boxes are equal when they are one box, or of one type with equal contents. -/
theorem equalBoxes_boxes (i j : BoxId) :
    h.equalBoxes (k + 1) (.boxed i) (.boxed j) =
      (i == j || ((h.boxCell i).type == (h.boxCell j).type &&
        Value.equalWith (h.equalBoxes k) (h.getBox i) (h.getBox j))) := rfl

/-- A box and a bare value are compared by what the box holds. -/
theorem equalBoxes_left (hv : ∀ i, v ≠ .boxed i) (i : BoxId) :
    h.equalBoxes (k + 1) (.boxed i) v = Value.equalWith (h.equalBoxes k) (h.getBox i) v := by
  cases v with
  | boxed j => exact absurd rfl (hv j)
  | _ => rfl

theorem equalBoxes_right (hv : ∀ i, v ≠ .boxed i) (i : BoxId) :
    h.equalBoxes (k + 1) v (.boxed i) = Value.equalWith (h.equalBoxes k) (h.getBox i) v := by
  cases v with
  | boxed j => exact absurd rfl (hv j)
  | _ => rfl

/-- What is **found equal** is equal by the rules, if this is so of pairs with a box. -/
theorem same_of_equalWith {boxes : Value → Value → Bool} (hboxes : ∀ v w, boxes v w = true → h.Same v w)
    (hab : Value.equalWith boxes a b = true) : h.Same a b := by
  induction hsize : sizeOf a using Nat.strong_induction_on generalizing a b with
  | _ size ih =>
    cases a with
    | boxed i =>
      rw [Value.equalWith_boxed_left] at hab
      exact hboxes _ _ hab
    | struct t xs =>
      cases b with
      | boxed i => exact hboxes _ _ hab
      | struct u ys =>
        rw [Value.equalWith_struct, Bool.and_eq_true, Value.equalAllWith_iff] at hab
        obtain ⟨htype, hlength, hfields⟩ := hab
        refine .struct htype hlength fun i x y hx hy => ih (sizeOf x) ?_ (hfields i x y hx hy) rfl
        have := List.sizeOf_lt_of_mem (List.mem_of_getElem? hx)
        simp only [← hsize, Value.struct.sizeOf_spec]
        omega
      | _ => exact .plain hab
    | _ =>
      cases b with
      | boxed i => exact hboxes _ _ hab
      | _ => exact .plain hab

/-- Whatever the budget is, boxes that are found equal are so by the rules. -/
theorem same_of_equalBoxes (hab : h.equalBoxes k a b = true) : h.Same a b := by
  induction k generalizing a b with
  | zero => cases hab
  | succ k ih =>
    have hinside : ∀ {v w}, Value.equalWith (h.equalBoxes k) v w = true → h.Same v w :=
      same_of_equalWith fun v w => ih
    by_cases ha : ∃ i, a = .boxed i
    · obtain ⟨i, rfl⟩ := ha
      by_cases hb : ∃ j, b = .boxed j
      · obtain ⟨j, rfl⟩ := hb
        rw [equalBoxes_boxes, Bool.or_eq_true, Bool.and_eq_true, beq_iff_eq] at hab
        rcases hab with rfl | ⟨htype, hcontent⟩
        · exact .box i
        · exact .boxes htype (hinside hcontent)
      · have hbare : ∀ j, b ≠ .boxed j := fun j hj => hb ⟨j, hj⟩
        rw [equalBoxes_left hbare] at hab
        exact .left hbare (hinside hab)
    · have hbare : ∀ i, a ≠ .boxed i := fun i hi => ha ⟨i, hi⟩
      cases b with
      | boxed j =>
        -- the box is opened on the left
        rw [equalBoxes_right hbare] at hab
        exact .right hbare (hinside hab).symm
      | _ =>
        cases a with
        | boxed i => exact absurd rfl (hbare i)
        | _ => exact .plain hab

/-- What is equal by the rules is **found equal**, in either order, on a budget for both depths. -/
theorem equalWith_of_same (hab : h.Same a b) (ha : a.Depth h.Holds n) (hb : b.Depth h.Holds m) (hk : n + m ≤ k) :
    Value.equalWith (h.equalBoxes k) a b = true ∧ Value.equalWith (h.equalBoxes k) b a = true := by
  -- by the rules: a box that is opened uses up one of the budget, and one of a depth or of both
  induction hab generalizing n m k with
  | plain hvw =>
    exact ⟨Value.equalWith_of_plainEqual hvw, Value.equalWith_of_plainEqual (Value.plainEqual_comm _ _ ▸ hvw)⟩
  | @struct t u xs ys htype hlength _ ih =>
    have hboth : ∀ (i : Nat) (x y : Value), xs[i]? = some x → ys[i]? = some y →
        Value.equalWith (h.equalBoxes k) x y = true ∧ Value.equalWith (h.equalBoxes k) y x = true := by
      intro i x y hx hy
      have hx' := ha.inside rfl (.field (List.mem_of_getElem? hx))
      have hy' := hb.inside rfl (.field (List.mem_of_getElem? hy))
      exact ih i x y hx hy hx' hy' hk
    rw [Value.equalWith_struct, Value.equalWith_struct, Bool.and_eq_true, Bool.and_eq_true, Value.equalAllWith_iff,
      Value.equalAllWith_iff]
    constructor
    · exact ⟨htype, hlength, fun i x y hx hy => (hboth i x y hx hy).1⟩
    · exact ⟨Ty.beq_comm _ _ ▸ htype, hlength.symm, fun i y x hy hx => (hboth i x y hx hy).2⟩
  | box i =>
    obtain ⟨n, rfl, -⟩ := ha.behind rfl
    obtain ⟨k, rfl⟩ := Nat.exists_eq_add_of_le' (show 1 ≤ k by omega)
    simp [Value.equalWith_boxed_left, equalBoxes_boxes]
  | @boxes i j htype _ ih =>
    obtain ⟨n, rfl, hbelow⟩ := ha.behind rfl
    obtain ⟨m, rfl, hbelow'⟩ := hb.behind rfl
    obtain ⟨k, rfl⟩ := Nat.exists_eq_add_of_le' (show 1 ≤ k by omega)
    obtain ⟨hleft, hright⟩ := ih (hbelow _ (.content i)) (hbelow' _ (.content j)) (show n + m ≤ k by omega)
    have htype' : ((h.boxCell j).type == (h.boxCell i).type) = true := Ty.beq_comm _ _ ▸ htype
    simp [Value.equalWith_boxed_left, equalBoxes_boxes, htype, htype', hleft, hright]
  | @left i v hv _ ih =>
    obtain ⟨n, rfl, hbelow⟩ := ha.behind rfl
    obtain ⟨k, rfl⟩ := Nat.exists_eq_add_of_le' (show 1 ≤ k by omega)
    have hcontent := (ih (hbelow _ (.content i)) hb (show n + m ≤ k by omega)).1
    rw [Value.equalWith_boxed_left, Value.equalWith_boxed_right hv, equalBoxes_left hv, equalBoxes_right hv]
    exact ⟨hcontent, hcontent⟩
  | @right i v hv _ ih =>
    obtain ⟨m, rfl, hbelow'⟩ := hb.behind rfl
    obtain ⟨k, rfl⟩ := Nat.exists_eq_add_of_le' (show 1 ≤ k by omega)
    have hcontent := (ih ha (hbelow' _ (.content i)) (show n + m ≤ k by omega)).2
    rw [Value.equalWith_boxed_left, Value.equalWith_boxed_right hv, equalBoxes_left hv, equalBoxes_right hv]
    exact ⟨hcontent, hcontent⟩

/-- On acyclic values the budget lasts: **structural equality is equality by rules**. -/
theorem equal_iff_same (ha : a.Acyclic h.Holds) (hb : b.Acyclic h.Holds) : h.equal a b = true ↔ h.Same a b := by
  constructor
  · exact same_of_equalWith fun v w => same_of_equalBoxes
  · intro hab
    have hbudget : (h.boxes.size + 1) + (h.boxes.size + 1) ≤ h.equalBudget := by
      rw [equalBudget]
      omega
    exact (equalWith_of_same hab (depth_of_acyclic ha) (depth_of_acyclic hb) hbudget).1

/-- Identical values are equal. -/
theorem equal_of_identical (hab : h.identical a b = true) : h.equal a b = true := by
  by_cases hbox : (∃ i, a = .boxed i) ∧ ∃ j, b = .boxed j
  · obtain ⟨⟨i, rfl⟩, j, rfl⟩ := hbox
    obtain rfl : i = j := by simpa [identical] using hab
    simp [equal, Value.equalWith_boxed_left, equalBudget, Nat.mul_succ, equalBoxes_boxes]
  · -- a box is identical to boxes only
    have hneither : (∀ i, a ≠ .boxed i) ∧ ∀ j, b ≠ .boxed j := by
      constructor
      · rintro i rfl
        cases b with
        | boxed j => exact hbox ⟨⟨i, rfl⟩, j, rfl⟩
        | _ => cases hab
      · rintro j rfl
        cases a with
        | boxed i => exact hbox ⟨⟨i, rfl⟩, j, rfl⟩
        | _ => cases hab
    rw [← identical_eq_equal h hneither.1 hneither.2]
    exact hab

/-! ## The laws -/

/-- What the **method that compares objects** finds: what is not null is compared structurally, and null is equal to
null alone. -/
def equalObjects (h : Heap) (a b : Value) : Bool := a.isNull == b.isNull && h.equal a b

/-- The **laws of an equality** between three values. -/
structure EqualityLaws (h : Heap) (eq : Value → Value → Bool) (a b c : Value) : Prop where
  /-- A value is equal to itself. -/
  refl : eq a a = true
  /-- The order does not matter. -/
  symm : eq a b = eq b a
  /-- What is equal to the same value is equal, exactly if no boxes of different types clash in it. -/
  trans : eq a b = true → eq b c = true → (eq a c = true ↔ ¬ h.Clash a c)
  /-- Identical values are equal. -/
  of_identical : h.identical a b = true → eq a b = true

/-- On comparable values **structural equality** has the laws of an equality. -/
theorem equal_laws (ha : h.Comparable a) (hb : h.Comparable b) (hc : h.Comparable c) :
    h.EqualityLaws h.equal a b c where
  refl := (equal_iff_same ha.acyclic ha.acyclic).2 (.refl ha)
  symm := by
    rw [Bool.eq_iff_iff, equal_iff_same ha.acyclic hb.acyclic, equal_iff_same hb.acyclic ha.acyclic]
    exact ⟨Same.symm, Same.symm⟩
  trans := by
    rw [equal_iff_same ha.acyclic hb.acyclic, equal_iff_same hb.acyclic hc.acyclic,
      equal_iff_same ha.acyclic hc.acyclic]
    exact fun hab hbc => ⟨Same.not_clash, fun hclash => hab.trans ha hb hbc hclash⟩
  of_identical := equal_of_identical

/-- Seeing to null first breaks **no law**. -/
theorem equalObjects_laws (hlaws : h.EqualityLaws h.equal a b c) : h.EqualityLaws h.equalObjects a b c where
  refl := by rw [equalObjects, beq_self_eq_true, Bool.true_and, hlaws.refl]
  symm := by
    rw [equalObjects, equalObjects, hlaws.symm]
    cases a.isNull <;> cases b.isNull <;> rfl
  trans := by
    intro hab hbc
    rw [equalObjects, Bool.and_eq_true, beq_iff_eq] at hab hbc
    rw [equalObjects, Bool.and_eq_true, beq_iff_eq, hlaws.trans hab.2 hbc.2]
    exact ⟨And.right, fun hclash => ⟨hab.1.trans hbc.1, hclash⟩⟩
  of_identical := by
    intro hab
    rw [equalObjects, Bool.and_eq_true, beq_iff_eq]
    refine ⟨?_, hlaws.of_identical hab⟩
    -- null is identical to null alone
    cases a <;> cases b <;> first | rfl | cases hab

/-- **The method that compares objects** computes that. -/
theorem run_equals (w : World) (a b : Value) :
    (Builtin.equals.body [a, b]).run w = .ok (.ofBool (w.heap.equalObjects a b), [a, b]) w := by
  rw [equalObjects]
  cases a <;> cases b <;> rfl

/-- **Structural equality**, and the method that compares objects, are reflexive, symmetric, and transitive up to
boxes of different types, and find identical values equal. -/
theorem equality_laws {w : World} (ha : w.heap.Comparable a) (hb : w.heap.Comparable b)
    (hc : w.heap.Comparable c) :
    w.heap.EqualityLaws w.heap.equal a b c ∧ w.heap.EqualityLaws w.heap.equalObjects a b c ∧
      (Builtin.equals.body [a, b]).run w = .ok (.ofBool (w.heap.equalObjects a b), [a, b]) w :=
  ⟨equal_laws ha hb hc, equalObjects_laws (equal_laws ha hb hc), run_equals w a b⟩

/-- Two boxes of the number five, of different types. -/
def fives : Heap where
  boxes := #[⟨.primitive .i32, .ofInt32 5⟩, ⟨.primitive .i64, .scalar (.word .i64 5)⟩]

/-- Numbers are comparable. -/
theorem comparable_scalar {s : Scalar} (hs : Value.Exact (.scalar s)) : h.Comparable (.scalar s) :=
  comparable_of_forall hs nofun

/-- So are boxes of numbers. -/
theorem comparable_boxed {i : BoxId} {s : Scalar} (hs : Value.Exact (.scalar s)) (hi : h.getBox i = .scalar s) :
    h.Comparable (.boxed i) := by
  refine comparable_of_forall trivial fun w hw => ?_
  cases hw
  rw [hi]
  refine ⟨comparable_scalar hs, fun hback => ?_⟩
  rcases hback.cases_head with hsame | ⟨w, hw, -⟩
  · cases hsame
  · cases hw

/-- A box of a number, the number, and the box again. -/
theorem equality_laws_five :
    (fives.Comparable (.boxed ⟨0⟩) ∧ fives.Comparable (.ofInt32 5)) ∧
      fives.EqualityLaws fives.equal (.boxed ⟨0⟩) (.ofInt32 5) (.boxed ⟨0⟩) ∧
        fives.EqualityLaws fives.equalObjects (.boxed ⟨0⟩) (.ofInt32 5) (.boxed ⟨0⟩) := by
  have hbox : fives.Comparable (.boxed ⟨0⟩) := comparable_boxed (s := .i32 5) trivial rfl
  have hfive : fives.Comparable (.ofInt32 5) := comparable_scalar (s := .i32 5) trivial
  obtain ⟨hequal, hobjects, -⟩ := equality_laws (w := { heap := fives }) hbox hfive hbox
  exact ⟨⟨hbox, hfive⟩, hequal, hobjects⟩

/-- **Equality is not transitive**: five is equal to itself in a box of any type, but boxes of different types are
not equal. -/
theorem equality_not_transitive :
    ¬ ∀ (h : Heap) (a b c : Value), h.Comparable a → h.Comparable b → h.Comparable c →
      h.equal a b = true → h.equal b c = true → h.equal a c = true := by
  intro htrans
  have hfirst : fives.Comparable (.boxed ⟨0⟩) := comparable_boxed (s := .i32 5) trivial rfl
  have hfive : fives.Comparable (.ofInt32 5) := comparable_scalar (s := .i32 5) trivial
  have hsecond : fives.Comparable (.boxed ⟨1⟩) := comparable_boxed (s := .word .i64 5) trivial rfl
  have hequal := htrans fives (.boxed ⟨0⟩) (.ofInt32 5) (.boxed ⟨1⟩) hfirst hfive hsecond rfl rfl
  have hne : fives.equal (.boxed ⟨0⟩) (.boxed ⟨1⟩) = false := rfl
  rw [hne] at hequal
  cases hequal

end Heap

end Stackwright
