/-! # Padded text

Text fitted into a **column**: cut to a greatest length, then filled up on either side to a least
length. Lengths count characters. -/

namespace Stackwright

/-- Where a text stands in its column. -/
inductive Alignment
  | left | right | center
  deriving DecidableEq

/-- A **column** that a text is written into. -/
structure Column where
  /-- The character the column is filled up with. -/
  fill : Char := ' '
  /-- Where the text stands. -/
  alignment : Alignment := .left
  /-- The least length. -/
  width : Nat := 0
  /-- The greatest length of the text itself, if there is one. -/
  limit : Option Nat := none

namespace Column

/-- How much of the missing room goes before the text; of an odd rest at the center, the larger part
goes after it. -/
def before (c : Column) (missing : Nat) : Nat :=
  match c.alignment with
  | .left => 0
  | .right => missing
  | .center => missing / 2

/-- The characters of a text in the column. -/
def fit (c : Column) (text : List Char) : List Char :=
  let cut := match c.limit with
    | some n => text.take n
    | none => text
  let missing := c.width - cut.length
  let left := c.before missing
  List.replicate left c.fill ++ cut ++ List.replicate (missing - left) c.fill

/-- A text in the column. -/
def write (c : Column) (text : String) : String := String.ofList (c.fit text.toList)

theorem before_le (c : Column) (missing : Nat) : c.before missing ≤ missing := by
  unfold before; split <;> omega

/-- A text that is not cut fills exactly the larger of its own length and the column's. -/
theorem length_fit {c : Column} (h : c.limit = none) (text : List Char) :
    (c.fit text).length = max c.width text.length := by
  have := c.before_le (c.width - text.length)
  simp only [fit, h, List.length_append, List.length_replicate]
  omega

end Column

end Stackwright
