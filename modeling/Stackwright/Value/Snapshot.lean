import Stackwright.Value.Heap
import Std.Data.HashMap

/-! # Snapshots

A **snapshot** is a value with everything it refers to, written out as a tree. Each heap cell is
numbered where it is first reached, before its content is; a later visit shows the number alone. So a
snapshot tells which references are shared, and a cycle ends where it closes. -/

namespace Stackwright

/-- A value **written out** with what it refers to. -/
inductive Snapshot where
  /-- A value that refers to no cell. -/
  | plain (value : Value)
  /-- A cell that was reached before. -/
  | seen (number : Nat)
  /-- An array. -/
  | array (element : Ty) (number : Nat) (items : List Snapshot)
  /-- An object. -/
  | object (type : Ty) (number : Nat) (fields : List Snapshot)
  /-- A struct. -/
  | struct (type : Ty) (fields : List Snapshot)
  /-- A box. -/
  | boxed (type : Ty) (number : Nat) (content : Snapshot)
  /-- The address of an item of an array. -/
  | elementAddress (array : Snapshot) (index : Nat)
  /-- The address of the content of a box. -/
  | boxAddress (box : Snapshot)

/-- A **cell** of the heap. -/
inductive CellId
  /-- An array. -/
  | array (index : Nat)
  /-- An object. -/
  | object (index : Nat)
  /-- A box. -/
  | boxed (index : Nat)
  deriving DecidableEq, Hashable

/-- The cells that snapshots have **reached**, with their numbers. -/
structure Reached where
  /-- The number of each cell. -/
  numbers : Std.HashMap CellId Nat := {}

namespace Snapshot

/-- Visits a cell: its number, and its snapshot when it is new. -/
def visit (cell : CellId) (write : Nat → StateM Reached Snapshot) : StateM Reached Snapshot := do
  match (← get).numbers[cell]? with
  | some n => pure (.seen n)
  | none =>
    let n := (← get).numbers.size
    modify fun r => { r with numbers := r.numbers.insert cell n }
    write n

mutual

/-- The snapshot of a value, given that of the cell of a reference. -/
def ofValueWith (follow : CellId → StateM Reached Snapshot) : Value → StateM Reached Snapshot
  | .array a => follow (.array a.index)
  | .object o => follow (.object o.index)
  | .boxed b => follow (.boxed b.index)
  | .struct t fields => .struct t <$> ofValuesWith follow fields
  | .address (.element a i) => (.elementAddress · i) <$> follow (.array a.index)
  | .address (.boxed b) => .boxAddress <$> follow (.boxed b.index)
  | v => pure (.plain v)

/-- The snapshots of several values. -/
def ofValuesWith (follow : CellId → StateM Reached Snapshot) :
    List Value → StateM Reached (List Snapshot)
  | [] => pure []
  | v :: rest => do
    let s ← ofValueWith follow v
    return s :: (← ofValuesWith follow rest)

end

/-- The snapshot of a cell, which follows at most the given number of references in turn. -/
def ofCell (h : Heap) : Nat → CellId → StateM Reached Snapshot
  | 0, _ => pure (.plain .null)
  | n + 1, c => visit c fun number =>
    match c with
    | .array i =>
      let cell := h.arrayCell ⟨i⟩
      .array cell.element number <$> ofValuesWith (ofCell h n) cell.items.toList
    | .object i =>
      let cell := h.objectCell ⟨i⟩
      .object cell.type number <$> ofValuesWith (ofCell h n) cell.fields.toList
    | .boxed i =>
      let cell := h.boxCell ⟨i⟩
      .boxed cell.type number <$> ofValueWith (ofCell h n) cell.content

/-- The **snapshot of a value**. A path through new cells is no longer than the heap has cells. -/
def ofValue (h : Heap) (v : Value) : StateM Reached Snapshot :=
  ofValueWith (ofCell h (h.arrays.size + h.objects.size + h.boxes.size + 1)) v

/-- The snapshots of several values, with one numbering. -/
def ofValues (h : Heap) (vs : List Value) : List Snapshot :=
  ((vs.mapM (ofValue h)).run {}).1

end Snapshot

end Stackwright
