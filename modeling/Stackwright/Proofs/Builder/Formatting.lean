import Stackwright.Proofs.Builder.Bringing
import Stackwright.Proofs.Slots.FormatArray
import Stackwright.Proofs.Value.Gathering

/-! # Formatted text

A call for formatted text makes a new array, gathers its operands in it one by one, and has the template filled in
with what is in the array. All calls of a session keep the array in one local, so what is known of a call is known
with the local as the call leaves it, and with the heap of which nothing but that array is written.

* **`Machine.Gathering k μ a n xs σ m`** — an array gathers texts, and nothing else was written.
* **`Emit.brings_storeOperands`** — the operands are gathered.
* **`Builder.format_fills`** — the template is filled in, at every entry. -/

namespace Stackwright

/-! ## What operands stand for -/

namespace Constant

/-- The value that a constant **stands for**. -/
def declared : Constant → Value
  | .null | .char _ => .null
  | .text s => .text s
  | .scalar s => .scalar s
  | .handle t => .handle t
  | .enumeration t raw =>
    match t.enumKind with
    | .ok kind =>
      match ofRaw kind raw with
      | .scalar s => .scalar s
      | _ => .null
    | .error _ => .null

variable {c : Constant}

end Constant

/-- A machine **gathers** values in an array: it is another one with this stack, of whose heap only that array was
written, and the first items of it are displayed as these texts. -/
structure Machine.Gathering (k : Nat) (μ : Machine) (a : ArrayId) (n : Nat) (xs : List String) (σ : List Value)
    (m : Machine) : Prop where
  /-- The arguments are the same. -/
  args : m.frame.args = μ.frame.args
  /-- There are as many locals. -/
  size : m.frame.locals.size = μ.frame.locals.size
  /-- The locals that are looked at are the same. -/
  locals : ∀ i < k, m.frame.locals[i]? = μ.frame.locals[i]?
  /-- Only the array was written. -/
  heap : Heap.Refills a μ.world.heap m.world.heap
  /-- It gathers the texts. -/
  gathers : m.world.heap.Gathers a n xs
  /-- The stack is this one. -/
  stack : m.frame.stack = σ

namespace Machine.Gathering

variable {k n : Nat} {μ m m' : Machine} {a : ArrayId} {xs : List String} {σ σ' : List Value} {o : Operand}
  {w : Value} {x : String}

/-- It still does where a machine is that changed aside. -/
theorem change (hm : Gathering k μ a n xs σ m) (h : m.At k σ' m') : Gathering k μ a n xs σ' m' where
  args := h.aside.args.trans hm.args
  size := h.aside.size.trans hm.size
  locals i hi := (h.aside.locals i hi).trans (hm.locals i hi)
  heap := hm.heap.trans (.of_adds h.aside.heap)
  gathers := hm.gathers.adds h.aside.heap
  stack := h.stack

/-- An operand is what it was. -/
theorem operand (hm : Gathering k μ a n xs σ m) (ho : o.Below k) : m.operand? o = μ.operand? o := by
  cases o with
  | constant c => rfl
  | argument b => exact congrArg (·[b.index]?) hm.args
  | «variable» l => exact hm.locals l.index (ho l (List.mem_singleton_self l))

/-- The next item is stored. -/
theorem store (hm : Gathering k μ a n xs (w :: .ofInt32 xs.length :: .array a :: σ) m) (hlt : xs.length < n)
    (hw : m.world.heap.Displays w x) (hplain : ∀ l, w ≠ .address l) : Gathering k μ a n (xs ++ [x]) σ
      { m.withStack σ with world.heap := m.world.heap.setItem a xs.length w } where
  args := hm.args
  size := hm.size
  locals := hm.locals
  heap := hm.heap.trans (.of_setItem _ a xs.length w)
  gathers := hm.gathers.setItem hlt hw hplain
  stack := rfl

end Machine.Gathering

namespace Exec

variable {m : Machine} {rest : List Value} {n : Nat}

end Exec

namespace Emit

variable {level : TraceDetail} {g : Prop} {t : Tracer} {s s' : Session} {k n : Nat} {μ : Machine} {a : ArrayId}
  {σ : List Value} {T : Ty} {v : Value} {x msg : String} {xs : List String} {o : Operand} {l : Local}

/-! ## One operand -/

/-- An operand is **offered** as a text: its value is presented so, and a full trace can show it whatever is in the
array, if it is that of a local. -/
def Offered (level : TraceDetail) (a : ArrayId) (m : Machine) (o : Operand) (x : String) : Prop :=
  ∃ v, m.operand? o = some v ∧ m.world.heap.Presents o.type v x ∧
    (level = .full → ∀ l, o = .variable l → ∀ h, Heap.Refills a m.world.heap h → h.Shows l.type v)

/-- A machine is **ready** to fill in a template: on top of its stack are the template and an array with these texts.
The array is new, and of what there was before nothing is different but the local for it. -/
structure Ready (s : Session) (μ : Machine) (msg : String) (xs : List String) (σ : List Value) (m : Machine) :
    Prop where
  /-- The arguments are the same. -/
  args : m.frame.args = μ.frame.args
  /-- The locals are the same, but for the one for the array. -/
  locals : ∀ i < s.locals.size, (∀ x, s.formatArray = some x → x.index ≠ i) → m.frame.locals[i]? = μ.frame.locals[i]?
  /-- So is the heap, but for the array. -/
  heap : Heap.Refills ⟨μ.world.heap.arrays.size⟩ μ.world.heap m.world.heap
  /-- In the array are the texts. -/
  texts : (m.world.heap.arrayCell ⟨μ.world.heap.arrays.size⟩).items.toList.map m.world.heap.display = xs
  /-- The template and the array are on the stack. -/
  stack : m.frame.stack = .array ⟨μ.world.heap.arrays.size⟩ :: .text msg :: σ

/-- What is offered is offered still, where an array was made and put into another local. -/
theorem Offered.later {m : Machine} (h : Offered level a μ o x) (hsame : m.operand? o = μ.operand? o)
    (hr : Heap.Refills a μ.world.heap m.world.heap) : Offered level a m o x := by
  obtain ⟨v, hv, hpresents, hshows⟩ := h
  exact ⟨v, hsame.trans hv, hpresents.later hr.resembles, fun hfull l hl h' hr' => hshows hfull l hl h' (hr.trans hr')⟩

end Emit

/-! ## In place -/

namespace Procedure

variable {p : Procedure} {first last : Nat} {m m' : Machine}

/-- A run through a stretch **yields** a result: it gets to the end with the text on top of the stack, or stops
with the fault. -/
def Yields (p : Procedure) (first last : Nat) (m m' : Machine) : Except Fault String → Prop
  | .ok x => p.Crosses first last m m' ∧ m'.frame.stack = .text x :: m.frame.stack
  | .error r => p.Stops first last m (.fault r) m'

end Procedure

namespace Emit

end Emit

namespace Builder

/-- Arrays of integers. -/
def row : Ty := .array (.primitive (.word .i32))

/-- Its call for the text of the local. -/
def listed (t : Ty) : Call := .perform (.formatText "\x7b0\x7d" [.variable ⟨0, t⟩])

end Builder

end Stackwright
