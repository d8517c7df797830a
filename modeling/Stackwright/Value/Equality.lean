import Stackwright.Value.Heap

/-! # Equality of values

Two equalities. **Identity** (`identical`) compares references by what they refer to and scalars by
their numbers. **Structural equality** (`equal`) also looks into boxes: two boxes are equal when their
types and contents are, and a box is equal to what it holds. Both compare structs field by field,
structurally. -/

namespace Stackwright

namespace Value

/-- The equality of values that are neither boxes nor two structs. -/
def plainEqual : Value → Value → Bool
  | .null, .null => true
  | .text a, .text b => a == b
  | .handle a, .handle b => a == b
  | .array a, .array b => a == b
  | .object a, .object b => a == b
  | .scalar a, .scalar b => a.toNumber.compare? b.toNumber == some .eq
  | _, _ => false

mutual

/-- Structural equality, given how pairs with a box are compared. -/
def equalWith (boxes : Value → Value → Bool) : Value → Value → Bool
  | .boxed a, b => boxes (.boxed a) b
  | a, .boxed b => boxes a (.boxed b)
  | .struct t xs, .struct u ys => t == u && equalAllWith boxes xs ys
  | a, b => plainEqual a b

/-- Structural equality of two lists of values, position by position. -/
def equalAllWith (boxes : Value → Value → Bool) : List Value → List Value → Bool
  | [], [] => true
  | x :: xs, y :: ys => equalWith boxes x y && equalAllWith boxes xs ys
  | _, _ => false

end

end Value

namespace Heap

/-- Structural equality of a pair with a box, which opens at most the given number of boxes. -/
def equalBoxes (h : Heap) : Nat → Value → Value → Bool
  | 0, _, _ => false
  | n + 1, .boxed a, .boxed b =>
    a == b || ((h.boxCell a).type == (h.boxCell b).type &&
      Value.equalWith (h.equalBoxes n) (h.getBox a) (h.getBox b))
  | n + 1, .boxed a, v => Value.equalWith (h.equalBoxes n) (h.getBox a) v
  | n + 1, v, .boxed b => Value.equalWith (h.equalBoxes n) (h.getBox b) v
  | _ + 1, a, b => Value.plainEqual a b

/-- How many boxes a comparison opens along one path: each side passes through every box at most
once, unless boxes form a cycle. -/
def equalBudget (h : Heap) : Nat := 2 * (h.boxes.size + 1)

/-- **Structural equality.** -/
def equal (h : Heap) (a b : Value) : Bool :=
  Value.equalWith (h.equalBoxes h.equalBudget) a b

/-- **Identity.** -/
def identical (h : Heap) : Value → Value → Bool
  | .boxed a, .boxed b => a == b
  | .struct t xs, .struct u ys =>
    t == u && Value.equalAllWith (h.equalBoxes h.equalBudget) xs ys
  | a, b => Value.plainEqual a b

/-- Away from boxes the two equalities agree. -/
theorem identical_eq_equal (h : Heap) {a b : Value} (ha : ∀ i, a ≠ .boxed i)
    (hb : ∀ i, b ≠ .boxed i) : h.identical a b = h.equal a b := by
  cases a <;> cases b <;> simp_all [identical, equal, Value.equalWith]

end Heap

end Stackwright
