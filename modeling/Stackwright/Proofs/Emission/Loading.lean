import Stackwright.Proofs.Emission.Interludes
import Stackwright.Proofs.Machine.Places
import Stackwright.Proofs.Slots.Stores

/-! # Loading operands

What the operations that load an operand leave on the stack, whatever is played between them: the value of
the operand, or the address of the place that it is.

* **`Machine.operand? m o`** — the value of an operand.
* **`Machine.Place m t o l`** — an operand is a place that holds a value of a type.
* **`Op.Played.load`**, **`Op.Played.receive`** — loads of operands and of receivers. -/

namespace Stackwright

/-! ## The values of operands -/

/-- The **value** of an operand: a constant is what it is loaded as, and a slot is what it holds. -/
def Machine.operand? (m : Machine) : Operand → Option Value
  | .constant c => some c.loaded
  | .argument a => m.frame.args[a.index]?
  | .variable l => m.frame.locals[l.index]?

/-- The locals of an operand are **below** `k`. -/
def Operand.Below (o : Operand) (k : Nat) : Prop := ∀ l ∈ o.locals, l.index < k

/-- The locals that a session owns are below the number of its locals. -/
theorem Operand.below_of_owns {o : Operand} {s : Session} (h : ∀ l ∈ o.locals, s.Owns l) :
    o.Below s.locals.size := by
  intro l hl
  obtain ⟨name, hname⟩ := h l hl
  exact (Array.getElem?_eq_some_iff.1 hname).1

/-- A receiver is a **place** of a machine: a slot of the type that the method belongs to, or a reference
to a box that can be opened as that type. -/
inductive Machine.Place (m : Machine) (t : Ty) : Operand → Location → Prop
  /-- An argument of the type. -/
  | argument {a : Argument} (h : a.type == t) : Place m t (.argument a) (.argument a.index)
  /-- A local of the type. -/
  | variable {l : Local} (h : l.type == t) : Place m t (.variable l) (.variable l.index)
  /-- A reference to a box. -/
  | boxed {o : Operand} {b : BoxId} (h : o.type.isReference) (ho : m.operand? o = some (.boxed b))
      (hb : (m.world.heap.boxCell b).type.unboxesAs t) : Place m t o (.boxed b)

namespace Machine

variable {m m' : Machine} {k : Nat} {o : Operand} {v : Value} {t : Ty} {l : Location}

/-- What is done aside does not change operands. -/
theorem Aside.operand (h : m.Aside k m') (hk : o.Below k) : m'.operand? o = m.operand? o := by
  cases o with
  | constant c => rfl
  | argument a => simp only [operand?, h.args]
  | «variable» l => exact h.locals l.index (hk l (List.mem_singleton_self l))

/-- A place that is a local is below `k`. -/
theorem Place.below (h : m.Place t o l) (hk : o.Below k) : ∀ i, l = .variable i → i < k := by
  rintro i rfl
  cases h with
  | «variable» h => exact hk _ (List.mem_singleton_self _)

end Machine

namespace Exec

variable {m : Machine} {v : Value} {i : Nat}

theorem run_loadArg (h : m.frame.args[i]? = some v) :
    (Op.execute (.loadArg i)).run m = .ok () (m.withStack (v :: m.frame.stack)) := by
  have hload : (load (.argument i)).run m = .ok v m := by
    rw [run_load, Machine.read, Machine.read.slot, h]
  exact run_bind_ok hload

theorem run_loadLocal (h : m.frame.locals[i]? = some v) :
    (Op.execute (.loadLocal i)).run m = .ok () (m.withStack (v :: m.frame.stack)) := by
  have hload : (load (.variable i)).run m = .ok v m := by
    rw [run_load, Machine.read, Machine.read.slot, h]
  exact run_bind_ok hload

/-- The handle of a loaded type is itself. -/
theorem run_typeOfHandle {t : Ty} {rest : List Value} (h : m.frame.stack = .handle t :: rest) :
    (Op.execute (.call Builtin.typeOfHandle)).run m = .ok () m := by
  obtain ⟨⟨args, locals, stack⟩, world⟩ := m
  obtain rfl : stack = _ := h
  rfl

end Exec

/-! ## Loads -/

namespace Op.Played

variable {k : Nat} {m m' : Machine} {o : Operand} {v : Value} {t : Ty} {l : Location} {c : Conversion}

/-- One operation of which is known what it does wherever an interlude left the machine. -/
theorem single {x : Op} {stack : List Value} (h : Played k [x] m (.ok () m'))
    (hx : ∀ m₁, m.Interlude k m₁ → ∀ m₂, x.execute.run m₁ = .ok () m₂ →
      m₁.Aside k m₂ ∧ m₂.frame.stack = stack) : m.Aside k m' ∧ m'.frame.stack = stack := by
  obtain ⟨m₁, m₂, hm₁, hrun, hm'⟩ := h.one
  obtain ⟨haside, hstack⟩ := hx m₁ hm₁ m₂ hrun
  exact ⟨hm₁.aside.trans (haside.trans hm'.aside), hm'.stack.trans hstack⟩

/-- A **load** leaves the value of the operand. -/
theorem load (h : Played k o.loadOps m (.ok () m')) (hv : m.operand? o = some v) (hk : o.Below k) :
    m.Aside k m' ∧ m'.frame.stack = v :: m.frame.stack := by
  cases o with
  | constant c =>
    cases hv
    obtain ⟨m₁, hpush, hrest⟩ : ∃ m₁, Played k [.push c.loaded] m (.ok () m₁) ∧
        Played k _ m₁ (.ok () m') := split_ok h
    obtain ⟨haside, hstack⟩ : m.Aside k m₁ ∧ m₁.frame.stack = c.loaded :: m.frame.stack := by
      refine hpush.single fun m₂ hm₂ m₃ hrun => ?_
      cases hrun
      exact ⟨.withStack k _ _, congrArg (c.loaded :: ·) hm₂.stack⟩
    -- only a handle has an operation behind its push
    have hlast : m₁.Aside k m' ∧ m'.frame.stack = m₁.frame.stack := by
      cases c with
      | handle t =>
        refine hrest.single fun m₂ hm₂ m₃ hrun => ?_
        have hhandle : m₂.frame.stack = .handle t :: m.frame.stack := hm₂.stack.trans hstack
        rw [Exec.run_typeOfHandle hhandle] at hrun
        cases hrun
        exact ⟨.refl k _, hm₂.stack⟩
      | _ =>
        cases hrest with
        | done h => exact ⟨h.aside, h.stack⟩
    exact ⟨haside.trans hlast.1, hlast.2.trans hstack⟩
  | argument a =>
    refine h.single fun m₁ hm₁ m₂ hrun => ?_
    rw [Exec.run_loadArg ((hm₁.aside.operand hk).trans hv)] at hrun
    cases hrun
    exact ⟨.withStack k _ _, congrArg (v :: ·) hm₁.stack⟩
  | «variable» l =>
    refine h.single fun m₁ hm₁ m₂ hrun => ?_
    rw [Exec.run_loadLocal ((hm₁.aside.operand hk).trans hv)] at hrun
    cases hrun
    exact ⟨.withStack k _ _, congrArg (v :: ·) hm₁.stack⟩

end Op.Played

/-! ## Receivers -/

/-- Operands of a reference type are loaded as they are. -/
theorem Operand.addressOps_of_reference {o : Operand} (h : o.type.isReference) :
    o.addressOps = o.loadOps := by
  have hnot := Heap.not_isValue_of_isReference h
  cases o with
  | constant c => rfl
  | argument a => exact if_neg hnot
  | «variable» l => exact if_neg hnot

namespace Conversion

variable {s t : Ty} {isAddress : Bool}

/-- Nothing is planned between types that are the same. -/
theorem between_of_beq (h : s == t) : between s t isAddress = .ok .identity := if_pos h

/-- From a reference type to a value type a box is opened. -/
theorem between_reference (hs : s.isReference) (ht : t.isValue) : between s t isAddress =
    if s.accepts t then .ok (.openBox t (!isAddress)) else .error (.incompatibleTypes s t) := by
  have hs := Heap.not_isValue_of_isReference hs
  have hne : ¬ s == t := by
    intro h
    rw [Ty.isValue, (Ty.beq_iff.1 h).1] at hs
    exact hs ht
  rw [between, if_neg hne, if_pos ht, toValue, if_neg hs]

end Conversion

/-- A type that is the same as a value type is a value type. -/
theorem Ty.isValue_of_beq {s t : Ty} (h : s == t) (ht : t.isValue) : s.isValue := by
  rw [isValue, (beq_iff.1 h).1]
  exact ht

/-- The load of a **receiver that is a place** leaves its address. -/
theorem Op.Played.receive {k : Nat} {m m' : Machine} {o : Operand} {t : Ty} {l : Location}
    {c : Conversion} (hplace : m.Place t o l) (hc : Conversion.between o.type t true = .ok c)
    (ht : t.isValue) (hk : o.Below k) (hplayed : Played k (o.addressOps ++ c.ops) m (.ok () m')) :
    m.Aside k m' ∧ m'.frame.stack = .address l :: m.frame.stack := by
  -- the address of a slot is pushed, and needs no conversion
  have hslot : ∀ x : Op, o.addressOps ++ c.ops = [x] → x.execute = Exec.push (.address l) →
      m.Aside k m' ∧ m'.frame.stack = .address l :: m.frame.stack := by
    intro x hops hx
    rw [hops] at hplayed
    refine hplayed.single fun m₁ hm₁ m₂ hrun => ?_
    rw [hx] at hrun
    cases hrun
    exact ⟨.withStack k _ _, congrArg (_ :: ·) hm₁.stack⟩
  cases hplace with
  | argument h =>
    cases (Conversion.between_of_beq h).symm.trans hc
    refine hslot (.addressArg _) ?_ rfl
    exact (List.append_nil _).trans (if_pos (Ty.isValue_of_beq h ht))
  | «variable» h =>
    cases (Conversion.between_of_beq h).symm.trans hc
    refine hslot (.addressLocal _) ?_ rfl
    exact (List.append_nil _).trans (if_pos (Ty.isValue_of_beq h ht))
  | @boxed o b hreference ho hb =>
    rw [Conversion.between_reference hreference ht] at hc
    split at hc
    · cases hc
      rw [Operand.addressOps_of_reference hreference] at hplayed
      obtain ⟨m₁, hload, hopen⟩ := hplayed.split_ok
      obtain ⟨haside, hstack⟩ := hload.load ho hk
      have hsize := Heap.index_lt_of_isValue (Heap.isValue_of_unboxesAs hb ht)
      obtain ⟨haside', hstack'⟩ : m₁.Aside k m' ∧
          m'.frame.stack = .address (.boxed b) :: m.frame.stack := by
        refine hopen.single fun m₂ hm₂ m₃ hrun => ?_
        have hcell : m₂.world.heap.boxCell b = m.world.heap.boxCell b :=
          (haside.trans hm₂.aside).heap.boxCell hsize
        rw [Exec.run_openBox t (hm₂.stack.trans hstack), Exec.run_boxFor_boxed (hcell ▸ hb)] at hrun
        cases hrun
        exact ⟨.withStack k _ _, rfl⟩
      exact ⟨haside.trans haside', hstack'⟩
    · cases hc

end Stackwright
