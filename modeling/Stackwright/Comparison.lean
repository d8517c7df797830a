/-! # Comparisons

The six **comparisons** that a branch can test, each with its **inverse**. -/

namespace Stackwright

/-- A **comparison** of two operands. -/
inductive Comparison
  | lessThan | equalTo | lessThanOrEqualTo | greaterThan | notEqualTo | greaterThanOrEqualTo
  deriving DecidableEq

namespace Comparison

/-- Every comparison, in the order they are listed to a user. -/
def all : List Comparison :=
  [.lessThan, .equalTo, .lessThanOrEqualTo, .greaterThan, .notEqualTo, .greaterThanOrEqualTo]

/-- The name of a comparison. -/
def name : Comparison → String
  | .lessThan => "LessThan"
  | .equalTo => "EqualTo"
  | .lessThanOrEqualTo => "LessThanOrEqualTo"
  | .greaterThan => "GreaterThan"
  | .notEqualTo => "NotEqualTo"
  | .greaterThanOrEqualTo => "GreaterThanOrEqualTo"

/-- The comparison that holds of two ordered operands when this one does not. -/
def negated : Comparison → Comparison
  | .lessThan => .greaterThanOrEqualTo
  | .equalTo => .notEqualTo
  | .lessThanOrEqualTo => .greaterThan
  | .greaterThan => .lessThanOrEqualTo
  | .notEqualTo => .equalTo
  | .greaterThanOrEqualTo => .lessThan

@[simp] theorem negated_negated (c : Comparison) : c.negated.negated = c := by cases c <;> rfl

/-- Whether a comparison accepts an order. -/
def accepts : Comparison → Ordering → Bool
  | .lessThan, o => o.isLT
  | .equalTo, o => o.isEq
  | .lessThanOrEqualTo, o => o.isLE
  | .greaterThan, o => o.isGT
  | .notEqualTo, o => o.isNe
  | .greaterThanOrEqualTo, o => o.isGE

/-- On orders, the inverse is the negation. -/
theorem accepts_negated (c : Comparison) (o : Ordering) :
    c.negated.accepts o = !c.accepts o := by
  cases c <;> cases o <;> rfl

end Comparison

end Stackwright
