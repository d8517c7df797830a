/-! # Labels

A **label** is a position in the code of one session, known to jumps before it is marked. -/

namespace Stackwright

/-- A **label** of a session. -/
structure Label where
  /-- The session the label belongs to. -/
  session : Nat
  /-- The number of the label in its session. -/
  id : Nat
  deriving DecidableEq

/-- The text of a label. -/
def Label.text (l : Label) : String := "L" ++ toString l.id

end Stackwright
