import Stackwright.Machine.Arithmetic

/-! # Comparisons and their inverses

When two numbers have no order, and what that means for a comparison and its inverse. Equality and its
inverse are opposites of one another for all values. The comparisons that need an order are opposites
only where there is one: of operands of which one is not a number, neither holds.

* **`Number.IsNaN n`** — the number is a float that is not a number.
* **`Value.Unordered a b`** — two numeric values without an order. -/

namespace Stackwright

/-! ## Numbers without an order -/

/-- Two floats have no order exactly when one of them is not a number. -/
theorem Binary.compare?_eq_none {a b : Binary} : a.compare? b = none ↔ a = .nan ∨ b = .nan := by
  cases a <;> cases b <;> simp [compare?]

/-- The bits of a magnitude up to infinity, with any sign, are those of a number. -/
theorem FloatKind.decode_signed_ne_nan {negative : Bool} {magnitude : Nat}
    (h : magnitude ≤ FloatKind.double.infinityBits) :
    FloatKind.double.decode (encode.signed .double negative magnitude) ≠ .nan := by
  have hinf : FloatKind.double.infinityBits = 2047 * 2 ^ 52 := by decide
  have hbits : (encode.signed .double negative magnitude).toNat =
      if negative then 2 ^ 63 + magnitude else magnitude := by
    have hlt : (if negative then 2 ^ 63 + magnitude else magnitude) < 2 ^ 64 := by
      split <;> omega
    simp only [encode.signed, FloatKind.bits, Nat.shiftLeft_eq, Nat.one_mul, BitVec.toNat_ofNat]
    exact Nat.mod_eq_of_lt hlt
  -- with every exponent bit set the magnitude is that of infinity, whose fraction is zero
  have hfraction : (encode.signed .double negative magnitude).toNat / 2 ^ 52 % 2048 = 2047 →
      (encode.signed .double negative magnitude).toNat % 2 ^ 52 = 0 := by
    rw [hbits]
    split <;> omega
  simp only [decode, fractionBits, exponentBits, Nat.shiftLeft_eq, Nat.one_mul,
    Nat.shiftRight_eq_div_pow]
  split
  · rename_i hbiased
    rw [if_pos (hfraction hbiased)]
    intro h
    cases h
  · split
    · intro h
      cases h
    · intro h
      cases h

namespace Number

/-- A **float that is not a number**. -/
def IsNaN : Number → Prop
  | .int _ => False
  | .float bits => FloatKind.double.decode bits = .nan

/-- Only what is not a number is read off as such: integers are numbers as doubles too. -/
theorem toBinary_eq_nan {n : Number} : n.toBinary = .nan ↔ n.IsNaN := by
  cases n with
  | float bits => exact Iff.rfl
  | int n =>
    refine ⟨fun h => ?_, False.elim⟩
    have hle : FloatKind.double.magnitudeBits n.natAbs 0 ≤ FloatKind.double.infinityBits := by
      unfold FloatKind.magnitudeBits
      split
      · exact Nat.zero_le _
      · exact Nat.min_le_right _ _
    exact FloatKind.decode_signed_ne_nan hle h

/-- Two numbers have no order exactly when one of them is not a number. -/
theorem compare?_eq_none {x y : Number} : x.compare? y = none ↔ x.IsNaN ∨ y.IsNaN := by
  have hfloat : x.toBinary.compare? y.toBinary = none ↔ x.IsNaN ∨ y.IsNaN := by
    rw [Binary.compare?_eq_none, toBinary_eq_nan, toBinary_eq_nan]
  cases x with
  | float a => cases y <;> exact hfloat
  | int a =>
    cases y with
    | float b => exact hfloat
    | int b => simp [compare?, IsNaN]

end Number

/-! ## Comparisons -/

namespace Comparison

/-- A comparison that **needs an order**; the others test identity. -/
def Orders (c : Comparison) : Prop := c ≠ .equalTo ∧ c ≠ .notEqualTo

theorem not_orders {c : Comparison} : ¬ c.Orders ↔ c = .equalTo ∨ c = .notEqualTo := by
  cases c <;> simp [Orders]

theorem orders_negated {c : Comparison} : c.negated.Orders ↔ c.Orders := by
  cases c <;> simp [Orders, negated]

end Comparison

/-- Two numeric values that have **no order**: one of them is not a number. -/
def Value.Unordered (a b : Value) : Prop :=
  ∃ x y, a.scalar? = some x ∧ b.scalar? = some y ∧ (x.toNumber.IsNaN ∨ y.toNumber.IsNaN)

namespace Host

variable {c : Comparison} {a b : Value} {w w' : World} {r : Bool}

/-- Identity never fails and reads the heap alone. -/
theorem holds_identity (a b : Value) (w : World) :
    (holds .equalTo a b).run w = .ok (w.heap.identical a b) w ∧
      (holds .notEqualTo a b).run w = .ok (!w.heap.identical a b) w := ⟨rfl, rfl⟩

/-- A comparison that needs an order first asks for two numeric values. -/
theorem holds_of_orders (hc : c.Orders) (a b : Value) :
    holds c a b = (do
      let x ← scalarOf a
      let y ← scalarOf b
      match x.toNumber.compare? y.toNumber with
      | some o => pure (c.accepts o)
      | none => pure false) := by
  cases c with
  | equalTo => exact absurd rfl hc.1
  | notEqualTo => exact absurd rfl hc.2
  | _ => rfl

/-- The order of two numeric values decides such a comparison. -/
theorem holds_order (hc : c.Orders) (x y : Scalar) (w : World) :
    (holds c (.scalar x) (.scalar y)).run w =
      .ok ((x.toNumber.compare? y.toNumber).elim false c.accepts) w := by
  have hread : (holds c (.scalar x) (.scalar y)).run w =
      (match x.toNumber.compare? y.toNumber with
        | some o => pure (c.accepts o)
        | none => pure false : Host Bool).run w := by
    rw [holds_of_orders hc]
    rfl
  rw [hread]
  cases x.toNumber.compare? y.toNumber <;> rfl

/-- It gives an answer for numeric values only. -/
theorem scalars_of_holds (hc : c.Orders) (h : (holds c a b).run w = .ok r w') :
    ∃ x y, a = .scalar x ∧ b = .scalar y := by
  rw [holds_of_orders hc] at h
  cases a with
  | scalar x =>
    cases b with
    | scalar y => exact ⟨x, y, rfl, rfl⟩
    | _ => cases h
  | _ => cases h

/-- **A comparison and its inverse.** Where a comparison gives an answer, its inverse gives the opposite
one, unless the comparison needs an order and there is none: then neither holds. -/
theorem holds_inverse (h : (holds c a b).run w = .ok r w') :
    w' = w ∧
      (¬ (c.Orders ∧ a.Unordered b) → (holds c.negated a b).run w = .ok (!r) w) ∧
      (c.Orders ∧ a.Unordered b → r = false ∧ (holds c.negated a b).run w = .ok false w) := by
  -- only an order can be undefined; an identity always has an answer
  by_cases hc : c.Orders
  · obtain ⟨x, y, rfl, rfl⟩ := scalars_of_holds hc h
    have hunordered : (Value.scalar x).Unordered (.scalar y) ↔
        x.toNumber.compare? y.toNumber = none := by
      simp [Value.Unordered, Value.scalar?, Number.compare?_eq_none]
    rw [holds_order hc] at h
    rw [holds_order (Comparison.orders_negated.2 hc), hunordered]
    cases ho : x.toNumber.compare? y.toNumber with
    | none =>
      rw [ho] at h
      cases h
      exact ⟨rfl, fun hn => absurd ⟨hc, rfl⟩ hn, fun _ => ⟨rfl, rfl⟩⟩
    | some o =>
      rw [ho] at h
      cases h
      refine ⟨rfl, fun _ => ?_, fun hn => absurd hn.2 nofun⟩
      simp [c.accepts_negated o]
  · obtain ⟨hequal, hnot⟩ := holds_identity a b w
    rcases Comparison.not_orders.1 hc with rfl | rfl
    · rw [hequal] at h
      cases h
      exact ⟨rfl, fun _ => hnot, fun hn => absurd hn.1 hc⟩
    · rw [hnot] at h
      cases h
      refine ⟨rfl, fun _ => ?_, fun hn => absurd hn.1 hc⟩
      rw [Bool.not_not]
      exact hequal

end Host

end Stackwright
