import Stackwright.Proofs.Machine.Places
import Stackwright.Proofs.Value.Fields
import Stackwright.Proofs.Value.Items

/-! # Fields through receivers

The receiver of a field is an object, a box, or the address of a place that holds an object or a struct. A read
and a write look for the field at the same target: the object itself, what is in the box, what is at the address.
Only a read goes one step further and opens a box that it finds at an address. So both accept the same receivers
but for addresses of places that hold boxes, which a write refuses.

* **`Machine.at? m s`** — the value at a spot: a slot, an item, the content of a box, a field, a static field.
* **`Machine.Writes m s v m'`** — one spot was written, and nothing else.
* **`Machine.Rewrites m i w r s v`** — to write a field through a receiver is to write this at that spot.
* **`Exec.field_receivers`** — reading and writing a field through a receiver. -/

namespace Stackwright

/-! ## (1) Spots -/

/-- A **spot** where a machine keeps a value. -/
inductive Spot
  /-- An argument. -/
  | argument (index : Nat)
  /-- A local. -/
  | variable (index : Nat)
  /-- An item of an array. -/
  | item (array : ArrayId) (index : Nat)
  /-- The content of a box. -/
  | content (box : BoxId)
  /-- A field of an object. -/
  | field (object : ObjectId) (slot : Nat)
  /-- A static field. -/
  | static (id : StaticId)
  deriving DecidableEq

/-- The spot that a location names. -/
def Location.spot : Location → Spot
  | .argument i => .argument i
  | .variable i => .variable i
  | .element a i => .item a (indexOf i).toNat
  | .boxed b => .content b

/-- The value **at** a spot, where there is one. -/
def Machine.at? (m : Machine) : Spot → Option Value
  | .argument i => m.frame.args[i]?
  | .variable i => m.frame.locals[i]?
  | .item a i => (m.world.heap.arrayCell a).items[i]?
  | .content b => m.world.heap.boxes[b.index]?.map BoxCell.content
  | .field o i => (m.world.heap.objectCell o).fields[i]?
  | .static s => m.world.heap.statics[s.index]?

/-- A machine in which one spot was **written**: it holds the value, and nothing else is different. -/
structure Machine.Writes (m : Machine) (s : Spot) (v : Value) (m' : Machine) : Prop where
  /-- The spot holds the value. -/
  there : m'.at? s = some v
  /-- Every other spot holds what it held. -/
  elsewhere : ∀ s', s' ≠ s → m'.at? s' = m.at? s'
  /-- The stack is as it was. -/
  stack : m'.frame.stack = m.frame.stack
  /-- Arrays are of the element types they were of. -/
  arrays : ∀ a, (m'.world.heap.arrayCell a).element = (m.world.heap.arrayCell a).element
  /-- Objects are of the types they were of. -/
  objects : ∀ o, (m'.world.heap.objectCell o).type = (m.world.heap.objectCell o).type
  /-- Boxes are of the types they were of. -/
  boxes : ∀ b, (m'.world.heap.boxCell b).type = (m.world.heap.boxCell b).type
  /-- Apart from the heap the world is as it was. -/
  world : m'.world = { m.world with heap := m'.world.heap }

namespace Machine

variable {m m' : Machine} {l : Location} {s : Spot} {o : ObjectId} {i : Nat} {v w : Value}

/-- The content of a box is what is at its spot; a box that there is not reads as null. -/
theorem getBox_eq (m : Machine) (b : BoxId) : m.world.heap.getBox b = (m.at? (.content b)).getD .null := by
  rw [Heap.getBox, Heap.boxCell, Array.getD_eq_getD_getElem?, at?]
  cases m.world.heap.boxes[b.index]? <;> rfl

/-- What is read at a location, other than null, is at its spot. -/
theorem at_of_read (h : m.read l = .ok v) (hv : v ≠ .null) : m.at? l.spot = some v := by
  cases l with
  | argument i => exact Exec.getElem?_of_slot h
  | «variable» i => exact Exec.getElem?_of_slot h
  | element a i => exact (Exec.getItem_ok h).2.2
  | boxed b =>
    have hcontent : m.world.heap.getBox b = v := Except.ok.inj h
    rw [getBox_eq] at hcontent
    show m.at? (.content b) = some v
    cases hat : m.at? (.content b) with
    | none =>
      rw [hat] at hcontent
      exact absurd hcontent.symm hv
    | some w =>
      rw [hat] at hcontent
      exact congrArg some hcontent

/-- What comes to the spot of a location that could be read is read there. -/
theorem read_of_at (h : m.read l = .ok v) (hw : m'.at? l.spot = some w) : m'.read l = .ok w := by
  have hslot : ∀ {xs : Array Value} {i : Nat}, xs[i]? = some w → read.slot xs i = .ok w := by
    intro xs i hx
    rw [read.slot, hx]
  cases l with
  | argument i => exact hslot hw
  | «variable» i => exact hslot hw
  | element a i =>
    obtain ⟨hnonneg, -, -⟩ := Exec.getItem_ok h
    have hitem : (m'.world.heap.arrayCell a).items[(indexOf i).toNat]? = some w := hw
    rw [read, Heap.getItem, if_neg (by omega), hitem]
  | boxed b =>
    have hcontent : m'.at? (.content b) = some w := hw
    rw [read, getBox_eq, hcontent, Option.getD_some]

/-- A field of an object is written, and nothing else. -/
theorem writes_setField (hi : (m.world.heap.objectCell o).fields[i]? = some v) (w : Value) :
    m.Writes (.field o i) w { m with world.heap := m.world.heap.setField o i w } := by
  obtain ⟨hlt, -⟩ := Array.getElem?_eq_some_iff.1 hi
  -- an object that there is not has no fields
  have hindex : o.index < m.world.heap.objects.size := by
    by_contra hout
    have hnone : m.world.heap.objects[o.index]? = none := Array.getElem?_eq_none (Nat.le_of_not_lt hout)
    rw [Heap.objectCell, Array.getD_eq_getD_getElem?, hnone] at hlt
    exact absurd hlt (Nat.not_lt_zero _)
  have hcell := Heap.objectCell_setField (h := m.world.heap) i w hindex
  refine ⟨?_, fun s hs => ?_, rfl, fun _ => rfl, fun o' => ?_, fun _ => rfl, rfl⟩
  · show ((m.world.heap.setField o i w).objectCell o).fields[i]? = some w
    rw [hcell]
    exact Array.getElem?_setIfInBounds_self_of_lt hlt
  · cases s with
    | field o' j =>
      show ((m.world.heap.setField o i w).objectCell o').fields[j]? = _
      by_cases ho : o' = o
      · subst ho
        have hj : i ≠ j := fun heq => hs (by rw [heq])
        rw [hcell]
        exact Array.getElem?_setIfInBounds_ne hj
      · rw [Heap.objectCell_setField_of_ne i w ho]
        rfl
    | _ => rfl
  · show ((m.world.heap.setField o i w).objectCell o').type = _
    by_cases ho : o' = o
    · subst ho
      rw [hcell]
    · rw [Heap.objectCell_setField_of_ne i w ho]

/-- An item that was set is there. -/
theorem at_setItem {a : ArrayId} {n : Int} (h : m.world.heap.checkItem a n = .ok ()) (w : Value) :
    at? { m with world.heap := m.world.heap.setItem a n w } (.item a n.toNat) = some w := by
  obtain ⟨hnonneg, hlt⟩ := Heap.checkItem_ok h
  rw [Heap.itemCount] at hlt
  show ((m.world.heap.setItem a n w).arrayCell a).items[n.toNat]? = some w
  rw [Heap.arrayCell_setItem h]
  exact Array.getElem?_setIfInBounds_self_of_lt (by omega)

end Machine

namespace Exec

variable {m m' : Machine} {l : Location} {v w : Value}

/-- Setting an item of an array that has it is done. -/
theorem run_store_element {a : ArrayId} {i : Nat} (hi : m.world.heap.checkItem a (indexOf i) = .ok ()) :
    (store (.element a i) v).run m = .ok () { m with world.heap := m.world.heap.setItem a (indexOf i) v } := by
  have hset : (Host.setItem a (indexOf i) v).run m.world =
      .ok () { m.world with heap := m.world.heap.setItem a (indexOf i) v } := by
    rw [Host.run_setItem, hi]
  rw [store, run_lift, hset]

/-- A store at a location that holds a value, other than null, **writes its spot**. -/
theorem exists_store_writes (h : m.read l = .ok v) (hv : v ≠ .null) (w : Value) :
    ∃ m', (store l w).run m = .ok () m' ∧ m.Writes l.spot w m' := by
  have hat := Machine.at_of_read h hv
  cases l with
  | argument i =>
    obtain ⟨hi, -⟩ := Array.getElem?_eq_some_iff.1 hat
    refine ⟨{ m with frame.args := m.frame.args.setIfInBounds i w }, ?_, ?_, fun s hs => ?_, rfl, fun _ => rfl,
      fun _ => rfl, fun _ => rfl, rfl⟩
    · simp only [store, setArg, checkSlot, run_bind, run_get, if_pos hi, run_pure]
      rfl
    · exact Array.getElem?_setIfInBounds_self_of_lt hi
    · cases s with
      | argument j => exact Array.getElem?_setIfInBounds_ne fun heq => hs (congrArg Spot.argument heq.symm)
      | _ => rfl
  | «variable» i =>
    obtain ⟨hi, -⟩ := Array.getElem?_eq_some_iff.1 hat
    refine ⟨{ m with frame.locals := m.frame.locals.setIfInBounds i w }, ?_, ?_, fun s hs => ?_, rfl, fun _ => rfl,
      fun _ => rfl, fun _ => rfl, rfl⟩
    · simp only [store, setLocal, checkSlot, run_bind, run_get, if_pos hi, run_pure]
      rfl
    · exact Array.getElem?_setIfInBounds_self_of_lt hi
    · cases s with
      | «variable» j => exact Array.getElem?_setIfInBounds_ne fun heq => hs (congrArg Spot.variable heq.symm)
      | _ => rfl
  | element a i =>
    obtain ⟨hnonneg, hlt, -⟩ := getItem_ok h
    have hcheck : m.world.heap.checkItem a (indexOf i) = .ok () := if_pos ⟨hnonneg, hlt⟩
    have hcell := Heap.arrayCell_setItem (v := w) hcheck
    refine ⟨_, run_store_element hcheck, Machine.at_setItem hcheck w, fun s hs => ?_, rfl, Heap.element_setItem,
      fun _ => rfl, fun _ => rfl, rfl⟩
    cases s with
    | item a' j =>
      show ((m.world.heap.setItem a (indexOf i) w).arrayCell a').items[j]? = _
      by_cases ha : a' = a
      · subst ha
        have hj : (indexOf i).toNat ≠ j := fun heq => hs (by rw [← heq]; rfl)
        rw [hcell]
        exact Array.getElem?_setIfInBounds_ne hj
      · rw [Heap.arrayCell_setItem_of_ne ha]
        rfl
    | _ => rfl
  | boxed b =>
    have hb : b.index < m.world.heap.boxes.size := by
      by_contra hout
      have hnone : m.world.heap.boxes[b.index]? = none := Array.getElem?_eq_none (Nat.le_of_not_lt hout)
      rw [Location.spot, Machine.at?, hnone] at hat
      cases hat
    refine ⟨{ m with world.heap := m.world.heap.setBox b w }, rfl, ?_, fun s hs => ?_, rfl, fun _ => rfl,
      fun _ => rfl, fun b' => ?_, rfl⟩
    · show (m.world.heap.setBox b w).boxes[b.index]?.map BoxCell.content = some w
      simp [Heap.setBox, Array.getElem?_modify, Array.getElem?_eq_getElem hb]
    · cases s with
      | content b' =>
        have hindex : b.index ≠ b'.index := fun heq => hs (by cases b; cases b'; cases heq; rfl)
        show (m.world.heap.setBox b w).boxes[b'.index]?.map BoxCell.content = _
        simp [Heap.setBox, Array.getElem?_modify, hindex, Machine.at?]
      | _ => rfl
    · show ((m.world.heap.setBox b w).boxCell b').type = _
      rw [Heap.boxCell_setBox hb]
      split
      · rename_i heq
        rw [heq]
      · rfl

end Exec

/-! ## (2) Targets -/

/-- What is in a box, or else the value itself. -/
def Heap.unboxed (h : Heap) : Value → Value
  | .boxed b => h.getBox b
  | x => x

/-- The field of an object or a struct. -/
def Heap.fieldIn (h : Heap) (i : Nat) : Value → Except Fault Value
  | .object o => h.getField o i
  | .struct _ fields =>
    match fields[i]? with
    | some v => .ok v
    | none => .error (.outside i fields.length)
  | .null => .error .nullReference
  | v => .error (.typeMismatch "object or struct" (h.debug v))

/-- The **target** of a receiver: what is at its address, what is in the box, or the receiver itself. -/
def Machine.target (m : Machine) : Value → Except Fault Value
  | .address l => m.read l
  | .boxed b => .ok (m.world.heap.getBox b)
  | v => .ok v

/-- A receiver **leads to a box** if it is the address of a place that holds one. -/
def Machine.LeadsToBox (m : Machine) (r : Value) : Prop := ∃ l b, r = .address l ∧ m.read l = .ok (.boxed b)

/-- To write a field through a receiver is to write this at that spot. -/
inductive Machine.Rewrites (m : Machine) (i : Nat) (w : Value) : Value → Spot → Value → Prop
  /-- The field of an object is a spot of its own. -/
  | object {r : Value} {o : ObjectId} (h : m.target r = .ok (.object o)) : Rewrites m i w r (.field o i) w
  /-- A struct at a location is there with another field. -/
  | place {l : Location} {t : Ty} {fields : List Value} (h : m.read l = .ok (.struct t fields))
      (hi : i < fields.length) : Rewrites m i w (.address l) l.spot (.struct t (fields.set i w))
  /-- So is a struct in a box. -/
  | content {b : BoxId} {t : Ty} {fields : List Value} (h : m.world.heap.getBox b = .struct t fields)
      (hi : i < fields.length) : Rewrites m i w (.boxed b) (.content b) (.struct t (fields.set i w))

namespace Heap

variable {h : Heap} {i : Nat} {x v : Value}

/-- Only objects and structs have fields. -/
theorem fieldIn_eq_ok (hv : h.fieldIn i x = .ok v) :
    (∃ o, x = .object o ∧ (h.objectCell o).fields[i]? = some v) ∨ ∃ t fields, x = .struct t fields ∧ fields[i]? = some v := by
  cases x with
  | object o =>
    refine .inl ⟨o, rfl, ?_⟩
    simp only [fieldIn, getField] at hv
    cases hfield : (h.objectCell o).fields[i]? with
    | none =>
      rw [hfield] at hv
      cases hv
    | some w =>
      rw [hfield] at hv
      cases hv
      rfl
  | struct t fields =>
    refine .inr ⟨t, fields, rfl, ?_⟩
    simp only [fieldIn] at hv
    cases hfield : fields[i]? with
    | none =>
      rw [hfield] at hv
      cases hv
    | some w =>
      rw [hfield] at hv
      cases hv
      rfl
  | _ => cases hv

end Heap

namespace Machine

variable {m m' : Machine} {i : Nat} {w u r : Value} {s : Spot}

@[simp] theorem target_withStack (m : Machine) (stack : List Value) (r : Value) :
    (m.withStack stack).target r = m.target r := rfl

theorem rewrites_withStack {stack : List Value} : (m.withStack stack).Rewrites i w r s u ↔ m.Rewrites i w r s u := by
  constructor
  all_goals
    intro h
    cases h with
    | object h => exact .object h
    | place h hi => exact .place h hi
    | content h hi => exact .content h hi

/-- What can be written through leads to no box. -/
theorem Rewrites.not_leadsToBox (h : m.Rewrites i w r s u) : ¬ m.LeadsToBox r := by
  rintro ⟨l, b, rfl, hl⟩
  cases h with
  | object h =>
    have hobject : m.read l = .ok (.object _) := h
    rw [hl] at hobject
    cases hobject
  | place h hi =>
    rw [hl] at h
    cases h

/-- What was **written through a receiver** is found through it. -/
theorem Rewrites.found (hr : m.Rewrites i w r s u) (hm : m.Writes s u m') :
    ¬ m'.LeadsToBox r ∧ ∃ x, m'.target r = .ok x ∧ m'.world.heap.fieldIn i x = .ok w := by
  cases hr with
  | @object _ o h =>
    -- the spot is none that a location names, so the receiver still leads to the object
    have hread : ∀ l : Location, m.read l = .ok (.object o) → m'.read l = .ok (.object o) := by
      intro l hl
      refine read_of_at hl ?_
      rw [hm.elsewhere l.spot (by cases l <;> exact Spot.noConfusion)]
      exact at_of_read hl Value.noConfusion
    have htarget : m'.target r = .ok (.object o) := by
      cases r with
      | address l => exact hread l h
      | boxed b => exact hread (.boxed b) h
      | _ => exact h
    refine ⟨?_, .object o, htarget, ?_⟩
    · rintro ⟨l, b, rfl, hl⟩
      have hobject : m'.read l = .ok (.object o) := htarget
      rw [hl] at hobject
      cases hobject
    · have hfield : (m'.world.heap.objectCell o).fields[i]? = some w := hm.there
      rw [Heap.fieldIn, Heap.getField, hfield]
  | @place l t fields h hi =>
    have hread := read_of_at h hm.there
    refine ⟨?_, _, hread, ?_⟩
    · rintro ⟨l', b, heq, hl⟩
      cases heq
      rw [hread] at hl
      cases hl
    · rw [Heap.fieldIn, List.getElem?_set_self hi]
  | @content b t fields h hi =>
    refine ⟨?_, .struct t (fields.set i w), ?_, ?_⟩
    · rintro ⟨l, b', heq, -⟩
      cases heq
    · rw [target, getBox_eq, hm.there, Option.getD_some]
    · rw [Heap.fieldIn, List.getElem?_set_self hi]

end Machine

/-! ## (3) Reading and writing -/

namespace Exec

variable {m m' : Machine} {i : Nat} {r x v w : Value}

theorem run_setField (m : Machine) (o : ObjectId) (i : Nat) (w : Value) :
    (liftM (Host.setField o i w) : Exec Unit).run m = match m.world.heap.checkField o i with
      | .ok () => .ok () { m with world.heap := m.world.heap.setField o i w }
      | .error f => .error (.fault f) m := by
  show (liftM (do
    Host.ofExcept (m.world.heap.checkField o i)
    Host.modifyHeap (·.setField o i w) : Host Unit) : Exec Unit).run m = _
  cases m.world.heap.checkField o i <;> rfl

/-- Looks a field up in an object or a struct. -/
def lookUp (h : Heap) (i : Nat) : Value → Exec Value
  | .object o => Host.ofExcept (h.getField o i)
  | .struct _ fields =>
    match fields[i]? with
    | some v => pure v
    | none => fail (.outside i fields.length)
  | .null => fail .nullReference
  | v => Host.unexpected "object or struct" v

theorem run_lookUp (m : Machine) (i : Nat) (x : Value) :
    (lookUp m.world.heap i x).run m = match m.world.heap.fieldIn i x with
      | .ok v => .ok v m
      | .error f => .error (.fault f) m := by
  cases x with
  | object o =>
    show (liftM (Host.ofExcept (m.world.heap.getField o i)) : Exec Value).run m = _
    rw [Heap.fieldIn]
    cases m.world.heap.getField o i <;> rfl
  | struct t fields =>
    simp only [lookUp, Heap.fieldIn]
    cases fields[i]? <;> rfl
  | _ => rfl

/-- To read a field is to read through the receiver, to open a box that is found, and to look the field up. -/
theorem fieldOf_eq (r : Value) (i : Nat) : fieldOf r i = (do
    let h ← (Host.heap : Exec Heap)
    let x ← readThrough r
    lookUp h i (h.unboxed x)) := by
  refine bind_congr fun h => bind_congr fun x => ?_
  cases x <;> rfl

/-- A field is **read** at the target of the receiver, if that does not lead to a box. -/
theorem run_fieldOf (hr : ¬ m.LeadsToBox r) :
    (fieldOf r i).run m = match m.target r with
      | .ok x => match m.world.heap.fieldIn i x with
        | .ok v => .ok v m
        | .error f => .error (.fault f) m
      | .error f => .error (.fault f) m := by
  have hrun : (fieldOf r i).run m = (do
      let x ← readThrough r
      lookUp m.world.heap i (m.world.heap.unboxed x) : Exec Value).run m := by
    rw [fieldOf_eq]
    rfl
  have hplain : (∀ l, r ≠ .address l) → (readThrough r).run m = .ok r m := by
    intro h
    cases r with
    | address l => exact absurd rfl (h l)
    | _ => rfl
  rw [hrun]
  cases r with
  | address l =>
    rw [run_bind, readThrough, run_load, Machine.target]
    cases hread : m.read l with
    | error f => rfl
    | ok x =>
      cases x with
      | boxed b => exact absurd ⟨l, b, rfl, hread⟩ hr
      | _ => exact run_lookUp m i _
  | _ =>
    rw [run_bind_ok (hplain fun l => Value.noConfusion)]
    exact run_lookUp m i _

/-- A field that an object does not have is not set. -/
theorem run_setField_error {o : ObjectId} (hx : ∀ v, m.world.heap.fieldIn i (.object o) ≠ .ok v) :
    ∃ e, (liftM (Host.setField o i w) : Exec Unit).run m = .error e m := by
  rw [run_setField, Heap.checkField]
  by_cases hi : i < (m.world.heap.objectCell o).fields.size
  · simp only [Heap.fieldIn, Heap.getField, Array.getElem?_eq_getElem hi] at hx
    exact absurd rfl (hx _)
  · simp only [if_neg hi]
    exact ⟨_, rfl⟩

/-- What does not have the field is not changed. -/
theorem run_withField_error (hx : ∀ v, m.world.heap.fieldIn i x ≠ .ok v) :
    ∃ e, (withField x i w).run m = .error e m := by
  cases x with
  | object o =>
    obtain ⟨e, he⟩ := run_setField_error (w := w) hx
    exact ⟨e, run_bind_error he⟩
  | struct t fields =>
    have hi : ¬ i < fields.length := by
      intro hi
      simp only [Heap.fieldIn, List.getElem?_eq_getElem hi] at hx
      exact hx _ rfl
    exact ⟨_, congrArg (fun e : Exec Value => e.run m) (if_neg hi)⟩
  | _ => exact ⟨_, rfl⟩

/-- A write through an address or a box is a write at a place. -/
theorem run_setFieldOf_place {l : Location} (hr : r = .address l ∨ ∃ b, r = .boxed b ∧ l = .boxed b) :
    (setFieldOf r i w).run m = (do
      let x ← load l
      store l (← withField x i w) : Exec Unit).run m := by
  rcases hr with rfl | ⟨b, rfl, rfl⟩ <;> rfl

/-- A write through a receiver whose target **does not have the field** stops, and nothing is written. -/
theorem run_setFieldOf_error (hr : ∀ t fields, r ≠ .struct t fields)
    (hx : ∀ x v, m.target r = .ok x → m.world.heap.fieldIn i x ≠ .ok v) :
    ∃ e, (setFieldOf r i w).run m = .error e m := by
  have hplace : ∀ l : Location, (∀ x v, m.read l = .ok x → m.world.heap.fieldIn i x ≠ .ok v) →
      ∃ e, (do
        let x ← load l
        store l (← withField x i w) : Exec Unit).run m = .error e m := by
    intro l hx
    rw [run_bind, run_load]
    cases hread : m.read l with
    | error f => exact ⟨_, rfl⟩
    | ok x =>
      obtain ⟨e, he⟩ := run_withField_error (w := w) fun v => hx x v hread
      exact ⟨e, run_bind_error he⟩
  cases r with
  | object o => exact run_setField_error fun v => hx _ v rfl
  | address l =>
    rw [run_setFieldOf_place (.inl rfl)]
    exact hplace l hx
  | boxed b =>
    rw [run_setFieldOf_place (.inr ⟨b, rfl, rfl⟩)]
    exact hplace (.boxed b) hx
  | struct t fields => exact absurd rfl (hr t fields)
  | _ => exact ⟨_, rfl⟩

/-- A write at a place whose object or struct has the field is done. -/
theorem exists_write_place {l : Location} (hread : m.read l = .ok x) (hv : m.world.heap.fieldIn i x = .ok v) :
    ∃ u m', (do
      let x ← load l
      store l (← withField x i w) : Exec Unit).run m = .ok () m' ∧
        ((∃ o, x = .object o ∧ u = w ∧ m.Writes (.field o i) u m') ∨
          ∃ t fields, x = .struct t fields ∧ i < fields.length ∧ u = .struct t (fields.set i w) ∧
            m.Writes l.spot u m') := by
  have hload : (load l).run m = .ok x m := by rw [run_load, hread]
  rcases Heap.fieldIn_eq_ok hv with ⟨o, rfl, hfield⟩ | ⟨t, fields, rfl, hfield⟩
  · -- the object is stored where it was already
    let m₁ : Machine := { m with world.heap := m.world.heap.setField o i w }
    have hset : (withField (.object o) i w).run m = .ok (.object o) m₁ := by
      have hcheck : m.world.heap.checkField o i = .ok () := if_pos (Array.getElem?_eq_some_iff.1 hfield).1
      have hrun : (liftM (Host.setField o i w) : Exec Unit).run m = .ok () m₁ := by rw [run_setField, hcheck]
      exact run_bind_ok hrun
    have hwrites := Machine.writes_setField hfield w
    have hsame : m₁.read l = .ok (.object o) := by
      refine Machine.read_of_at hread ?_
      rw [hwrites.elsewhere l.spot (by cases l <;> exact Spot.noConfusion)]
      exact Machine.at_of_read hread Value.noConfusion
    refine ⟨w, m₁, ?_, .inl ⟨o, rfl, rfl, hwrites⟩⟩
    rw [run_bind_ok hload, run_bind_ok hset, store_read hsame]
  · obtain ⟨hi, -⟩ := List.getElem?_eq_some_iff.1 hfield
    have hset : (withField (.struct t fields) i w).run m = .ok (.struct t (fields.set i w)) m :=
      congrArg (fun e : Exec Value => e.run m) (if_pos hi)
    obtain ⟨m', hstore, hwrites⟩ := exists_store_writes hread Value.noConfusion (.struct t (fields.set i w))
    refine ⟨_, m', ?_, .inr ⟨t, fields, rfl, hi, rfl, hwrites⟩⟩
    rw [run_bind_ok hload, run_bind_ok hset, hstore]

/-- A write through a receiver whose target **has the field** writes it, and nothing else. -/
theorem exists_setFieldOf (hr : ∀ t fields, r ≠ .struct t fields) (hx : m.target r = .ok x)
    (hv : m.world.heap.fieldIn i x = .ok v) (w : Value) :
    ∃ s u m', (setFieldOf r i w).run m = .ok () m' ∧ m.Rewrites i w r s u ∧ m.Writes s u m' := by
  cases r with
  | object o =>
    cases hx
    rcases Heap.fieldIn_eq_ok hv with ⟨o', ho, hfield⟩ | ⟨t, fields, ht, -⟩
    · cases ho
      have hcheck : m.world.heap.checkField o i = .ok () := if_pos (Array.getElem?_eq_some_iff.1 hfield).1
      refine ⟨_, w, _, ?_, .object rfl, Machine.writes_setField hfield w⟩
      show (liftM (Host.setField o i w) : Exec Unit).run m = _
      rw [run_setField, hcheck]
    · cases ht
  | address l =>
    rw [run_setFieldOf_place (.inl rfl)]
    obtain ⟨u, m', hrun, ⟨o, rfl, rfl, hwrites⟩ | ⟨t, fields, rfl, hi, rfl, hwrites⟩⟩ :=
      exists_write_place (w := w) hx hv
    · exact ⟨_, _, m', hrun, .object hx, hwrites⟩
    · exact ⟨_, _, m', hrun, .place hx hi, hwrites⟩
  | boxed b =>
    rw [run_setFieldOf_place (.inr ⟨b, rfl, rfl⟩)]
    obtain ⟨u, m', hrun, ⟨o, rfl, rfl, hwrites⟩ | ⟨t, fields, rfl, hi, rfl, hwrites⟩⟩ :=
      exists_write_place (l := .boxed b) (w := w) hx hv
    · exact ⟨_, _, m', hrun, .object hx, hwrites⟩
    · exact ⟨_, _, m', hrun, .content (Except.ok.inj hx) hi, hwrites⟩
  | struct t fields => exact absurd rfl (hr t fields)
  | _ =>
    cases hx
    cases hv

/-- A write through a receiver **is done or not**: its target has the field, which is written, or nothing is. -/
theorem setFieldOf_cases (hr : ∀ t fields, r ≠ .struct t fields) (w : Value) :
    (∃ e, (setFieldOf r i w).run m = .error e m ∧ ∀ x v, m.target r = .ok x → m.world.heap.fieldIn i x ≠ .ok v) ∨
      ∃ x v s u m', m.target r = .ok x ∧ m.world.heap.fieldIn i x = .ok v ∧
        (setFieldOf r i w).run m = .ok () m' ∧ m.Rewrites i w r s u ∧ m.Writes s u m' := by
  by_cases hx : ∃ x v, m.target r = .ok x ∧ m.world.heap.fieldIn i x = .ok v
  · obtain ⟨x, v, hx, hv⟩ := hx
    obtain ⟨s, u, m', hrun, hrewrites, hwrites⟩ := exists_setFieldOf hr hx hv w
    exact .inr ⟨x, v, s, u, m', hx, hv, hrun, hrewrites, hwrites⟩
  · have hx : ∀ x v, m.target r = .ok x → m.world.heap.fieldIn i x ≠ .ok v := fun x v hr hv => hx ⟨x, v, hr, hv⟩
    obtain ⟨e, he⟩ := run_setFieldOf_error (w := w) hr hx
    exact .inl ⟨e, he, hx⟩

/-- What a write through a receiver has written is read through it. -/
theorem fieldOf_of_setFieldOf (h : (setFieldOf r i w).run m = .ok () m') : (fieldOf r i).run m' = .ok w m' := by
  have hr : ∀ t fields, r ≠ .struct t fields := by
    rintro t fields rfl
    cases h
  rcases setFieldOf_cases (m := m) (i := i) hr w with ⟨e, he, -⟩ | ⟨x, v, s, u, m₁, -, -, hrun, hrewrites, hwrites⟩
  · rw [he] at h
    cases h
  · rw [hrun] at h
    cases h
    obtain ⟨hfree, y, hy, hw⟩ := hrewrites.found hwrites
    rw [run_fieldOf hfree, hy]
    dsimp only
    rw [hw]

/-! ## (4) The instructions -/

variable {f : Field} {rest : List Value}

/-- The read of a field is that of the field of its receiver. -/
theorem run_execute_getField (hf : f.storage = .slot i) :
    (Op.execute (.getField f)).run (m.withStack (r :: rest)) = match (fieldOf r i).run (m.withStack rest) with
      | .ok v m' => .ok () (m'.withStack (v :: m'.frame.stack))
      | .error e m' => .error e m' := by
  rw [Op.execute, run_bind_ok (run_slotNumber hf), run_bind_ok (run_pop rfl), run_bind, Machine.withStack_withStack]
  cases (fieldOf r i).run (m.withStack rest) <;> rfl

/-- The write of a field is that of the field of its receiver, with a value that fits the field. -/
theorem run_execute_putField (hf : f.storage = .slot i) :
    (Op.execute (.putField f)).run (m.withStack (v :: r :: rest)) =
      (setFieldOf r i (Value.fit f.type.storedAs? v)).run (m.withStack rest) := by
  have hpop : (popFit f.type.storedAs?).run (m.withStack (v :: r :: rest)) =
      .ok (Value.fit f.type.storedAs? v) (m.withStack (r :: rest)) := by
    rw [popFit, run_bind_ok (run_pop rfl)]
    rfl
  rw [Op.execute, run_bind_ok (run_slotNumber hf), run_bind_ok hpop, run_bind_ok (run_pop rfl)]
  rfl

/-- **Fields through receivers.** For every instance field and every receiver but a bare struct, on every machine: a
write that stops has written nothing. A write is done exactly when a read through the same receiver is and the
receiver does not lead to a box. Then a read through the receiver gives the value that was written, made to fit the
type of the field; and one spot was written, the field of the object, or the place of the struct, which is there with
another field in that slot. -/
theorem field_receivers (hf : f.storage = .slot i) (m : Machine) (r v : Value) (rest : List Value)
    (hr : ∀ t fields, r ≠ .struct t fields) :
    (∀ e m', (Op.execute (.putField f)).run (m.withStack (v :: r :: rest)) = .error e m' → m' = m.withStack rest) ∧
    ((∃ m', (Op.execute (.putField f)).run (m.withStack (v :: r :: rest)) = .ok () m') ↔
      (∃ m', (Op.execute (.getField f)).run (m.withStack (r :: rest)) = .ok () m') ∧ ¬ m.LeadsToBox r) ∧
    ∀ m', (Op.execute (.putField f)).run (m.withStack (v :: r :: rest)) = .ok () m' →
      (Op.execute (.getField f)).run (m'.withStack (r :: rest)) =
        .ok () (m'.withStack (Value.fit f.type.storedAs? v :: rest)) ∧
      ∃ s u, m.Rewrites i (Value.fit f.type.storedAs? v) r s u ∧ (m.withStack rest).Writes s u m' := by
  rw [run_execute_putField hf, run_execute_getField hf]
  rcases setFieldOf_cases (m := m.withStack rest) (i := i) hr (Value.fit f.type.storedAs? v) with
    ⟨e, he, hx⟩ | ⟨x, y, s, u, m₁, hx, hy, hrun, hrewrites, hwrites⟩
  · -- the target does not have the field, so a read stops as well
    rw [he]
    refine ⟨fun e' m' h => (by cases h; rfl), iff_of_false (fun ⟨m', h⟩ => (by cases h)) ?_, fun m' h => (by cases h)⟩
    rintro ⟨⟨m', hm'⟩, hfree⟩
    rw [run_fieldOf (m := m.withStack rest) hfree] at hm'
    cases htarget : (m.withStack rest).target r with
    | error e =>
      rw [htarget] at hm'
      cases hm'
    | ok x =>
      cases hfield : (m.withStack rest).world.heap.fieldIn i x with
      | error e =>
        simp only [htarget, hfield] at hm'
        cases hm'
      | ok y => exact hx x y htarget hfield
  · -- the target has the field, so it is written, and read both before and after
    have hfree : ¬ (m.withStack rest).LeadsToBox r := hrewrites.not_leadsToBox
    have hread : (fieldOf r i).run (m.withStack rest) = .ok y (m.withStack rest) := by
      rw [run_fieldOf hfree, hx]
      dsimp only
      rw [hy]
    rw [hrun, hread]
    refine ⟨fun e m' h => (by cases h), iff_of_true ⟨m₁, rfl⟩ ⟨⟨_, rfl⟩, hfree⟩, fun m' h => ?_⟩
    cases h
    have hstack : m₁.withStack rest = m₁ := congrArg m₁.withStack hwrites.stack.symm
    refine ⟨?_, s, u, Machine.rewrites_withStack.1 hrewrites, hwrites⟩
    rw [run_execute_getField hf, hstack, fieldOf_of_setFieldOf hrun]
    show EStateM.Result.ok () (m₁.withStack (_ :: m₁.frame.stack)) = _
    rw [hwrites.stack]
    rfl

/-- A struct with one number, its field, and a machine with one in a local. -/
def point : Ty := .struct "Point" [] [("x", .primitive .i32)]

@[inherit_doc point] def abscissa : Field := ⟨point, "x", .primitive .i32, .slot 0⟩

@[inherit_doc point] def withPoint : Machine := ⟨⟨#[], #[.struct point [.ofInt32 0]], []⟩, {}⟩

/-- The number of a struct in a local is written and read by the address of the local. -/
theorem field_receivers_point : ∃ m',
    (Op.execute (.putField abscissa)).run (withPoint.withStack [.ofInt32 5, .address (.variable 0)]) = .ok () m' ∧
      (Op.execute (.getField abscissa)).run (m'.withStack [.address (.variable 0)]) =
        .ok () (m'.withStack [.ofInt32 5]) := by
  obtain ⟨-, hdone, hback⟩ := field_receivers (f := abscissa) (i := 0) rfl withPoint (.address (.variable 0)) (.ofInt32 5)
    [] (fun _ _ => Value.noConfusion)
  have hread : ∃ m', (Op.execute (.getField abscissa)).run (withPoint.withStack [.address (.variable 0)]) = .ok () m' :=
    ⟨_, rfl⟩
  have hfree : ¬ withPoint.LeadsToBox (.address (.variable 0)) := by
    rintro ⟨l, b, hl, hread⟩
    cases hl
    cases hread
  obtain ⟨m', hm'⟩ := hdone.2 ⟨hread, hfree⟩
  exact ⟨m', hm', (hback m' hm').1⟩

end Exec

end Stackwright
