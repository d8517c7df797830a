import Mathlib.Data.List.Infix
import Stackwright.Field
import Stackwright.Proofs.Machine.Aside
import Stackwright.Proofs.Ty.Order
import Stackwright.Ty.Declaration

/-! # Fields and inheritance

A class continues the fields of its base, so a slot that was found for an ancestor is the slot of the same
field in every descendant, whatever that declares under the same name. An object gets a value for every
field of its type when it is made, and no change of the heap takes one away; so a slot of an ancestor is
there in every object of a descendant, after any history.

* **`Declaration.fields_toTy_after`** — the fields of a declared class.
* **`Ty.slotOf?_eq_some_iff`** — a name refers to the last slot of the name.
* **`Ty.fields_prefix`** — the fields of an ancestor come first.
* **`Heap.Change`** — one change of a heap; a history is a row of changes.
* **`Heap.Laid`** — an object has a value for every field of its type, kept by every history.
* **`Field.stable_under_inheritance`** — reading and writing a field of an ancestor. -/

namespace Stackwright

/-! ## (1) Declarations -/

namespace Declaration

/-- A **call** on a declaration. -/
inductive Call
  /-- Sets the base. -/
  | base (t : Ty)
  /-- Adds an interface. -/
  | interface (t : Ty)
  /-- Adds a field. -/
  | field (name : String) (t : Ty)

/-- What a call does. -/
def apply (d : Declaration) : Call → Declaration
  | .base t => d.withBase t
  | .interface t => d.withInterface t
  | .field name t => d.withField name t

/-- The declaration **after** calls in a row. -/
def after (d : Declaration) (calls : List Call) : Declaration := calls.foldl apply d

/-- The base that a call sets. -/
def Call.base? : Call → Option Ty
  | .base t => some t
  | .interface _ | .field .. => none

/-- The field that a call adds. -/
def Call.field? : Call → Option (String × Ty)
  | .field name t => some (name, t)
  | .base _ | .interface _ => none

variable (d : Declaration) (calls : List Call)

@[simp] theorem form_after : (d.after calls).form = d.form := by
  induction calls generalizing d with
  | nil => rfl
  | cons c calls ih =>
    rw [after, List.foldl_cons]
    exact (ih _).trans (by cases c <;> rfl)

/-- The fields are added in the order of the calls. -/
theorem fields_after : (d.after calls).fields = d.fields ++ calls.filterMap Call.field? := by
  induction calls generalizing d with
  | nil => simp [after]
  | cons c calls ih =>
    rw [after, List.foldl_cons]
    refine (ih _).trans ?_
    cases c with
    | base t => rw [List.filterMap_cons_none rfl]; rfl
    | interface t => rw [List.filterMap_cons_none rfl]; rfl
    | field name t =>
      have hfield : Call.field? (.field name t) = some (name, t) := rfl
      rw [List.filterMap_cons_some hfield]
      exact List.append_assoc ..

/-- The last base is the base. -/
theorem base_after : (d.after calls).base = (calls.filterMap Call.base?).getLast?.getD d.base := by
  induction calls generalizing d with
  | nil => simp [after]
  | cons c calls ih =>
    rw [after, List.foldl_cons]
    refine (ih _).trans ?_
    cases c with
    | base t => simp [apply, withBase, Call.base?, List.getLast?_cons]
    | interface t => simp [apply, withInterface, Call.base?]
    | field name t => simp [apply, withField, Call.base?]

/-- The fields of a declared class are those of its last base and then its own, in the order of the
calls. -/
theorem fields_toTy_after (hform : d.form = .klass) : (d.after calls).toTy.fields =
    ((calls.filterMap Call.base?).getLast?.getD d.base).fields ++
      (d.fields ++ calls.filterMap Call.field?) := by
  rw [← base_after, ← fields_after, toTy, form_after, hform]
  rfl

end Declaration

/-! ## (2) Slots -/

namespace Ty

/-- There is no slot of a name exactly when no field has it. -/
theorem lastIndex?_eq_none_iff {name : String} {fs : List (String × Ty)} :
    lastIndex? name fs = none ↔ ∀ f ∈ fs, f.1 ≠ name := by
  induction fs with
  | nil => simp [lastIndex?]
  | cons f rest ih =>
    rw [lastIndex?, List.forall_mem_cons, ← ih]
    cases hrest : lastIndex? name rest with
    | some i => simp
    | none => simp

/-- No later field has the name. -/
theorem le_of_lastIndex? {name : String} {fs : List (String × Ty)} {i : Nat}
    (h : lastIndex? name fs = some i) {j : Nat} {t : Ty} (hj : fs[j]? = some (name, t)) : j ≤ i := by
  induction fs generalizing i j with
  | nil => cases h
  | cons f rest ih =>
    rw [lastIndex?] at h
    split at h
    next k hk =>
      obtain rfl := Option.some.inj h
      cases j with
      | zero => exact Nat.zero_le _
      | succ j => exact Nat.succ_le_succ (ih hk (by simpa using hj))
    next hnone =>
      -- the rest does not have the name, so the field can only be the first
      cases j with
      | zero => exact Nat.zero_le _
      | succ j =>
        have hmem : (name, t) ∈ rest := List.mem_of_getElem? (by simpa using hj)
        exact absurd rfl (lastIndex?_eq_none_iff.1 hnone _ hmem)

/-- The slot of a name is the **last** one of a field with the name. -/
theorem lastIndex?_eq_some_iff {name : String} {fs : List (String × Ty)} {i : Nat} :
    lastIndex? name fs = some i ↔
      (∃ t, fs[i]? = some (name, t)) ∧ ∀ j t, fs[j]? = some (name, t) → j ≤ i := by
  constructor
  · intro h
    exact ⟨lastIndex?_eq_some h, fun j t hj => le_of_lastIndex? h hj⟩
  · rintro ⟨⟨t, ht⟩, hlast⟩
    cases hfound : lastIndex? name fs with
    | none => exact absurd rfl (lastIndex?_eq_none_iff.1 hfound _ (List.mem_of_getElem? ht))
    | some k =>
      obtain ⟨u, hu⟩ := lastIndex?_eq_some hfound
      have hle := le_of_lastIndex? hfound ht
      have hge := hlast k u hu
      rw [Nat.le_antisymm hge hle]

variable {s t : Ty} {name : String} {i : Nat}

/-- A name refers to the **last** slot of the name. -/
theorem slotOf?_eq_some_iff : t.slotOf? name = some i ↔
    (∃ u, t.fields[i]? = some (name, u)) ∧ ∀ j u, t.fields[j]? = some (name, u) → j ≤ i :=
  lastIndex?_eq_some_iff

/-- The fields of the base of a class come first; other bases have none. -/
theorem fields_prefix_of_base {b : Ty} (hb : BaseLink t b) : b.fields <+: t.fields := by
  cases t with
  | klass path base is own =>
    obtain rfl := Option.some.inj hb
    exact List.prefix_append _ _
  | _ =>
    first
    | (obtain rfl := Option.some.inj hb; exact List.nil_prefix)
    | cases hb

/-- The fields of an **ancestor** come first. -/
theorem fields_prefix (h : t ∈ s.lineage) : t.fields <+: s.fields := by
  have hreach := mem_lineage_iff_reaches.1 h
  induction hreach using Relation.ReflTransGen.head_induction_on with
  | refl => exact List.prefix_refl _
  | head hb hreach ih =>
    exact (ih (mem_lineage_iff_reaches.2 hreach)).trans (fields_prefix_of_base hb)

/-- A field of an ancestor is in its slot in every descendant. -/
theorem fields_of_lineage (h : t ∈ s.lineage) {f : String × Ty} (hf : t.fields[i]? = some f) :
    s.fields[i]? = some f := by
  obtain ⟨more, hmore⟩ := fields_prefix h
  obtain ⟨hlt, -⟩ := List.getElem?_eq_some_iff.1 hf
  rw [← hmore, List.getElem?_append_left hlt]
  exact hf

end Ty

/-- An instance field is found exactly when its type has a field of the name; it is the last one. -/
theorem Field.ofName?_eq_some_iff {A : Ty} {name : String} {f : Field} :
    Field.ofName? A name = some f ↔
      ∃ i, A.slotOf? name = some i ∧ A.fields[i]? = some (name, f.type) ∧
        f = ⟨A, name, f.type, .slot i⟩ := by
  rw [Field.ofName?]
  constructor
  · intro h
    obtain ⟨i, hi, h⟩ := Option.bind_eq_some_iff.1 h
    obtain ⟨⟨n, t⟩, ht, h⟩ := Option.bind_eq_some_iff.1 h
    obtain ⟨u, hu⟩ := Ty.lastIndex?_eq_some hi
    rw [hu] at ht
    cases ht
    cases h
    exact ⟨i, hi, hu, rfl⟩
  · rintro ⟨i, hi, ht, hf⟩
    rw [hi, Option.bind_eq_bind, Option.bind_some, ht]
    rw [hf]
    rfl

/-! ## (3) Histories of a heap -/

namespace Heap

/-- One **change** of a heap. -/
inductive Change (h : Heap) : Heap → Prop
  /-- An array is made. -/
  | allocArray (element : Ty) (items : Array Value) : Change h (h.allocArray element items).2
  /-- An object is made. -/
  | allocObject (t : Ty) : Change h (h.allocObject t).2
  /-- A box is made. -/
  | allocBox (t : Ty) (v : Value) : Change h (h.allocBox t v).2
  /-- A static field is made. -/
  | allocStatic (v : Value) : Change h (h.allocStatic v).2
  /-- An item is written. -/
  | setItem (a : ArrayId) (i : Int) (v : Value) : Change h (h.setItem a i v)
  /-- A field is written. -/
  | setField (o : ObjectId) (slot : Nat) (v : Value) : Change h (h.setField o slot v)
  /-- A box is written. -/
  | setBox (b : BoxId) (v : Value) : Change h (h.setBox b v)
  /-- A static field is written. -/
  | setStatic (s : StaticId) (v : Value) : Change h (h.setStatic s v)

/-- An object is of a type and **laid** out as that: it has a value for every field. -/
structure Laid (h : Heap) (o : ObjectId) (t : Ty) : Prop where
  /-- The object is one of the heap. -/
  lt : o.index < h.objects.size
  /-- The object is of the type. -/
  type : (h.objectCell o).type = t
  /-- It has a value for every field. -/
  size : (h.objectCell o).fields.size = t.fields.length

variable {h h' : Heap} {o : ObjectId} {t : Ty}

/-- A new object is laid out. -/
theorem laid_allocObject (h : Heap) (t : Ty) : (h.allocObject t).2.Laid (h.allocObject t).1 t := by
  have hcell : (h.allocObject t).2.objectCell (h.allocObject t).1 =
      ⟨t, (Value.zerosOf t.fields).toArray⟩ := by
    simp [objectCell, allocObject]
  refine ⟨by simp [allocObject], by rw [hcell], ?_⟩
  rw [hcell]
  simp [Value.zerosOf_eq]

/-- The cell of an object after one of its fields was written. -/
theorem objectCell_setField (slot : Nat) (v : Value) (hlt : o.index < h.objects.size) :
    (h.setField o slot v).objectCell o =
      { h.objectCell o with fields := (h.objectCell o).fields.setIfInBounds slot v } := by
  simp [objectCell, setField, Array.getD_eq_getD_getElem?, Array.getElem_modify, hlt]

/-- The cells of other objects are as they were. -/
theorem objectCell_setField_of_ne {o' : ObjectId} (slot : Nat) (v : Value) (hne : o' ≠ o) :
    (h.setField o slot v).objectCell o' = h.objectCell o' := by
  have hindex : o.index ≠ o'.index := by
    intro heq
    exact hne (by cases o; cases o'; simp_all)
  simp [objectCell, setField, Array.getD_eq_getD_getElem?, Array.getElem?_modify, hindex]

/-- A change leaves an object laid out. -/
theorem Laid.change (ho : h.Laid o t) (hh : h.Change h') : h'.Laid o t := by
  cases hh with
  | allocObject u =>
    have hcell : (h.allocObject u).2.objectCell o = h.objectCell o := by
      simp [objectCell, Heap.allocObject, Array.getD_eq_getD_getElem?, Array.getElem?_push,
        Nat.ne_of_lt ho.lt]
    refine ⟨?_, hcell ▸ ho.type, hcell ▸ ho.size⟩
    have hlt := ho.lt
    simp only [Heap.allocObject, Array.size_push]
    omega
  | setField o' slot v =>
    have hlt : o.index < (h.setField o' slot v).objects.size := by
      simpa [Heap.setField] using ho.lt
    by_cases heq : o = o'
    · subst heq
      have hcell := objectCell_setField slot v ho.lt
      exact ⟨hlt, by rw [hcell, ho.type], by rw [hcell, Array.size_setIfInBounds, ho.size]⟩
    · have hcell := objectCell_setField_of_ne (h := h) slot v heq
      exact ⟨hlt, by rw [hcell, ho.type], by rw [hcell, ho.size]⟩
  | allocArray | allocBox | allocStatic | setItem | setBox | setStatic => exact ⟨ho.lt, ho.type, ho.size⟩

/-- So does every **history**. -/
theorem Laid.history (ho : h.Laid o t) (hh : Relation.ReflTransGen Change h h') : h'.Laid o t := by
  induction hh with
  | refl => exact ho
  | tail _ hchange ih => exact ih.change hchange

/-- An object that is laid out has a value in every slot of its type. -/
theorem Laid.getField {i : Nat} (ho : h.Laid o t) (hi : i < t.fields.length) :
    ∃ w, h.getField o i = .ok w := by
  have hlt : i < (h.objectCell o).fields.size := ho.size ▸ hi
  refine ⟨(h.objectCell o).fields[i], ?_⟩
  simp [Heap.getField, Array.getElem?_eq_getElem hlt]

/-- Such a slot is not refused. -/
theorem Laid.checkField {i : Nat} (ho : h.Laid o t) (hi : i < t.fields.length) :
    h.checkField o i = .ok () := by
  have hlt : i < (h.objectCell o).fields.size := ho.size ▸ hi
  exact if_pos hlt

/-- A field that was written is read back, and the fields of other slots are as they were. -/
theorem Laid.getField_setField {i : Nat} (ho : h.Laid o t) (hi : i < t.fields.length) (v : Value)
    (j : Nat) : (h.setField o i v).getField o j = if j = i then .ok v else h.getField o j := by
  have hlt : i < (h.objectCell o).fields.size := ho.size ▸ hi
  have hcell := objectCell_setField i v ho.lt
  by_cases hji : j = i
  · subst hji
    rw [if_pos rfl, Heap.getField, hcell]
    simp [hlt]
  · rw [if_neg hji, Heap.getField, Heap.getField, hcell]
    have hne : i ≠ j := fun h => hji h.symm
    simp [hne]

end Heap

/-! ## (4) Reading and writing -/

namespace Exec

variable {m : Machine} {o : ObjectId} {f : Field} {i : Nat} {rest : List Value}

theorem run_slotNumber (hf : f.storage = .slot i) : (slotNumber f).run m = .ok i m := by
  rw [slotNumber, hf]
  rfl

/-- A field of an object is read. -/
theorem run_getField (hf : f.storage = .slot i) (hstack : m.frame.stack = .object o :: rest) {w : Value}
    (hw : m.world.heap.getField o i = .ok w) :
    (Op.execute (.getField f)).run m = .ok () (m.withStack (w :: rest)) := by
  have hread : (fieldOf (.object o) i).run (m.withStack rest) = .ok w (m.withStack rest) := by
    show (liftM (Host.ofExcept (m.world.heap.getField o i)) : Exec Value).run (m.withStack rest) = _
    rw [hw]
    rfl
  rw [Op.execute, run_bind_ok (run_slotNumber hf), run_bind_ok (run_pop hstack), run_bind_ok hread]
  rfl

/-- A field of an object is written, made to fit the type of the field. -/
theorem run_putField (hf : f.storage = .slot i) {v : Value}
    (hstack : m.frame.stack = v :: .object o :: rest) (hi : m.world.heap.checkField o i = .ok ()) :
    (Op.execute (.putField f)).run m = .ok () (Machine.withStack
      { m with world.heap := m.world.heap.setField o i (Value.fit f.type.storedAs? v) } rest) := by
  have hpop : (popFit f.type.storedAs?).run m =
      .ok (Value.fit f.type.storedAs? v) (m.withStack (.object o :: rest)) := by
    rw [popFit, run_bind_ok (run_pop hstack)]
    rfl
  have hset : (Host.setField o i (Value.fit f.type.storedAs? v)).run m.world =
      .ok () { m.world with heap := m.world.heap.setField o i (Value.fit f.type.storedAs? v) } := by
    show (do Host.ofExcept (m.world.heap.checkField o i)
             Host.modifyHeap (·.setField o i (Value.fit f.type.storedAs? v)) : Host Unit).run m.world = _
    rw [hi]
    rfl
  have hwrite : (setFieldOf (.object o) i (Value.fit f.type.storedAs? v)).run (m.withStack rest) =
      .ok () (Machine.withStack
        { m with world.heap := m.world.heap.setField o i (Value.fit f.type.storedAs? v) } rest) := by
    show (liftM (Host.setField o i (Value.fit f.type.storedAs? v)) : Exec Unit).run (m.withStack rest) = _
    rw [run_lift, Machine.world_withStack, hset]
    rfl
  rw [Op.execute, run_bind_ok (run_slotNumber hf), run_bind_ok hpop, run_bind_ok (run_pop rfl)]
  exact hwrite

/-! ## (5) Writing is a history -/

/-- A computation that changes the heap by a **history**, whether or not it answers. -/
structure Historic {σ α : Type} (heapOf : σ → Heap) (e : EStateM Halt σ α) : Prop where
  /-- It does when it answers. -/
  ok : ∀ {s s' : σ} {a : α}, e.run s = .ok a s' →
    Relation.ReflTransGen Heap.Change (heapOf s) (heapOf s')
  /-- It does when it stops. -/
  error : ∀ {s s' : σ} {r : Halt}, e.run s = .error r s' →
    Relation.ReflTransGen Heap.Change (heapOf s) (heapOf s')

section historic

variable {σ α β : Type} {heapOf : σ → Heap} {e : EStateM Halt σ α} {g : α → EStateM Halt σ β}

theorem Quiet.historic (h : Quiet e) : Historic heapOf e where
  ok hrun := by rw [h.ok hrun]
  error hrun := by rw [h.error hrun]

theorem Historic.bind (he : Historic heapOf e) (hg : ∀ a, Historic heapOf (g a)) :
    Historic heapOf (e >>= g) := by
  have hrun : ∀ s, (e >>= g).run s = match e.run s with
      | .ok a s => (g a).run s
      | .error r s => .error r s := by
    intro s
    show EStateM.bind e g s = _
    unfold EStateM.bind
    cases h : e s <;> simp [EStateM.run, h]
  constructor <;> intro s s' x h <;> rw [hrun] at h
  · split at h
    · rename_i a s₁ hs₁
      exact (he.ok hs₁).trans ((hg a).ok h)
    · cases h
  · split at h
    · rename_i a s₁ hs₁
      exact (he.ok hs₁).trans ((hg a).error h)
    · rename_i hs₁
      cases h
      exact he.error hs₁

end historic

/-- What changes the heap of the world by a history does so below a frame. -/
theorem historic_lift {α : Type} {c : Host α} (h : Historic (·.heap) c) :
    Historic (·.world.heap) (liftM c : Exec α) := by
  constructor <;> intro m m' x hrun <;> rw [run_lift] at hrun <;> split at hrun <;> cases hrun
  · rename_i hw
    exact h.ok hw
  · rename_i hw
    exact h.error hw

theorem historic_modifyHeap {change : Heap → Heap} (h : ∀ heap : Heap, heap.Change (change heap)) :
    Historic (·.heap) (Host.modifyHeap change) := by
  constructor <;> intro w w' x hrun <;> cases hrun
  exact .single (h _)

theorem historic_setField (o : ObjectId) (i : Nat) (v : Value) :
    Historic (·.heap) (Host.setField o i v) :=
  quiet_heap.historic.bind fun _ => (quiet_ofExcept _).historic.bind fun _ =>
    historic_modifyHeap fun _ => .setField o i v

theorem historic_setItem (a : ArrayId) (i : Int) (v : Value) :
    Historic (·.heap) (Host.setItem a i v) :=
  quiet_heap.historic.bind fun _ => (quiet_ofExcept _).historic.bind fun _ =>
    historic_modifyHeap fun _ => .setItem a i v

theorem historic_pop : Historic (·.world.heap) pop := by
  constructor <;> intro m m' x h <;> obtain ⟨⟨args, locals, stack⟩, world⟩ := m <;>
    cases stack <;> cases h <;> exact .refl

/-- A store at a location is a history: a slot is not in the heap. -/
theorem historic_store (p : Location) (v : Value) : Historic (·.world.heap) (store p v) := by
  have hcheck : ∀ (slots : Array Value) (i : Nat), Quiet (checkSlot slots i) := by
    intro slots i
    rw [checkSlot]
    split
    · exact quiet_pure _
    · exact quiet_throw _
  have hframe : ∀ change : Machine → Frame,
      Historic (·.world.heap) (modify fun m => { m with frame := change m } : Exec Unit) := by
    intro change
    constructor <;> intro m m' x h <;> cases h
    exact .refl
  cases p with
  | argument i =>
    exact quiet_get.historic.bind fun m => (hcheck _ _).historic.bind fun _ => hframe _
  | «variable» i =>
    exact quiet_get.historic.bind fun m => (hcheck _ _).historic.bind fun _ => hframe _
  | element a i => exact historic_lift (historic_setItem a _ v)
  | boxed b => exact historic_lift (historic_modifyHeap fun _ => .setBox b v)

theorem historic_withField (target : Value) (i : Nat) (v : Value) :
    Historic (·.world.heap) (withField target i v) := by
  cases target with
  | struct t fields =>
    rw [withField]
    split
    · exact (quiet_pure _).historic
    · exact (quiet_throw _).historic
  | object o => exact (historic_lift (historic_setField o i v)).bind fun _ => (quiet_pure _).historic
  | null => exact (quiet_throw _).historic
  | _ => exact (quiet_lift (quiet_unexpected _ _)).historic

/-- **Field writes** are histories, whatever the receiver is and whether or not they are refused. -/
theorem historic_putField (f : Field) : Historic (·.world.heap) (Op.execute (.putField f)) := by
  have hslot : Quiet (slotNumber f) := by
    rw [slotNumber]
    split
    · exact quiet_pure _
    · exact quiet_throw _
  -- a field is set in its object, or in the structure behind an address or in a box
  have hwrite : ∀ (receiver : Value) (i : Nat) (v : Value),
      Historic (·.world.heap) (setFieldOf receiver i v) := by
    intro receiver i v
    cases receiver with
    | object o => exact historic_lift (historic_setField o i v)
    | address p =>
      exact (quiet_load p).historic.bind fun target =>
        (historic_withField target i v).bind fun changed => historic_store p changed
    | boxed b =>
      exact (quiet_lift quiet_heap).historic.bind fun h =>
        (historic_withField (h.getBox b) i v).bind fun changed =>
          historic_lift (historic_modifyHeap fun _ => .setBox b changed)
    | null => exact (quiet_throw _).historic
    | _ => exact (quiet_lift (quiet_unexpected _ _)).historic
  exact hslot.historic.bind fun i =>
    (historic_pop.bind fun _ => (quiet_pure _).historic).bind fun v =>
      historic_pop.bind fun receiver => hwrite receiver i v

end Exec

/-! ## (6) Stability -/

/-- **Field slots are stable under inheritance.** A declared class has the fields of its base and then its
own, whatever the order of the calls, and a name refers to its last slot. A field that was resolved on an
ancestor of a type can be read and written on every object of the type, after any history of the heap since
the object was made: reading answers, writing is accepted, what was written is read back as it fits the
type of the field, and nothing else in the heap is different, whatever the type declares under the same
name. -/
theorem Field.stable_under_inheritance :
    (∀ (path : String) (calls : List Declaration.Call),
      (Declaration.after ⟨.klass, path, .object, [], []⟩ calls).toTy.fields =
        ((calls.filterMap Declaration.Call.base?).getLast?.getD .object).fields ++
          calls.filterMap Declaration.Call.field?) ∧
    (∀ (t : Ty) (name : String) (i : Nat), t.slotOf? name = some i ↔
      (∃ u, t.fields[i]? = some (name, u)) ∧ ∀ j u, t.fields[j]? = some (name, u) → j ≤ i) ∧
    ∀ (D A : Ty) (name : String) (f : Field), A ∈ D.lineage → Field.ofName? A name = some f →
      ∃ i, f.storage = .slot i ∧ A.slotOf? name = some i ∧ D.fields[i]? = some (name, f.type) ∧
        ∀ (before : Heap) (m : Machine),
          Relation.ReflTransGen Heap.Change (before.allocObject D).2 m.world.heap →
          let o := (before.allocObject D).1
          (∀ rest, m.frame.stack = .object o :: rest →
            ∃ w, m.world.heap.getField o i = .ok w ∧
              (Op.execute (.getField f)).run m = .ok () (m.withStack (w :: rest))) ∧
          (∀ v rest, m.frame.stack = v :: .object o :: rest →
            let after := m.world.heap.setField o i (Value.fit f.type.storedAs? v)
            (Op.execute (.putField f)).run m =
              .ok () (Machine.withStack { m with world.heap := after } rest) ∧
            (∀ rest', (Op.execute (.getField f)).run
                (Machine.withStack { m with world.heap := after } (.object o :: rest')) =
              .ok () (Machine.withStack { m with world.heap := after }
                (Value.fit f.type.storedAs? v :: rest'))) ∧
            (∀ j, j ≠ i → after.getField o j = m.world.heap.getField o j) ∧
            (∀ o', o' ≠ o → after.objectCell o' = m.world.heap.objectCell o')) := by
  refine ⟨fun path calls => Declaration.fields_toTy_after _ calls rfl,
    fun t name i => Ty.slotOf?_eq_some_iff, fun D A name f hA hf => ?_⟩
  obtain ⟨i, hslot, hfield, heq⟩ := Field.ofName?_eq_some_iff.1 hf
  have hstorage : f.storage = .slot i := by rw [heq]
  have hDfield := Ty.fields_of_lineage hA hfield
  obtain ⟨hi, -⟩ := List.getElem?_eq_some_iff.1 hDfield
  refine ⟨i, hstorage, hslot, hDfield, fun before m hhistory => ?_⟩
  intro o
  have hlaid : m.world.heap.Laid o D := (Heap.laid_allocObject before D).history hhistory
  refine ⟨fun rest hstack => ?_, fun v rest hstack => ?_⟩
  · obtain ⟨w, hw⟩ := hlaid.getField hi
    exact ⟨w, hw, Exec.run_getField hstorage hstack hw⟩
  · intro after
    have hread := hlaid.getField_setField hi (Value.fit f.type.storedAs? v)
    refine ⟨Exec.run_putField hstorage hstack (hlaid.checkField hi), fun rest' => ?_, fun j hj => ?_,
      fun o' ho' => Heap.objectCell_setField_of_ne i _ ho'⟩
    · have hback : after.getField o i = .ok (Value.fit f.type.storedAs? v) :=
        (hread i).trans (if_pos rfl)
      exact Exec.run_getField hstorage rfl hback
    · exact (hread j).trans (if_neg hj)

/-- A class that declares the name of an inherited field again: a number that is written to the inherited
field is read back as a byte, and the field of the same name in the class is as it was. -/
theorem Field.stable_under_redeclaration :
    let base : Ty := .klass "Base" .object [] [("x", .primitive .i8)]
    let derived : Ty := .klass "Derived" base [] [("x", .string)]
    let f : Field := ⟨base, "x", .primitive .i8, .slot 0⟩
    let heap : Heap := (Heap.allocObject {} derived).2
    base ∈ derived.lineage ∧ Field.ofName? base "x" = some f ∧ derived.slotOf? "x" = some 1 ∧
      ∃ after : Heap, (Op.execute (.putField f)).run
          ⟨⟨#[], #[], [.ofInt32 300, .object ⟨0⟩]⟩, { heap }⟩ =
            .ok () ⟨⟨#[], #[], []⟩, { heap := after }⟩ ∧
        (Op.execute (.getField f)).run ⟨⟨#[], #[], [.object ⟨0⟩]⟩, { heap := after }⟩ =
          .ok () ⟨⟨#[], #[], [.scalar (.word .i8 44)]⟩, { heap := after }⟩ ∧
        after.getField ⟨0⟩ 1 = .ok .null := by
  intro base derived f heap
  have hbase : base ∈ derived.lineage := List.mem_cons_of_mem _ (Ty.mem_lineage_self base)
  have hf : Field.ofName? base "x" = some f := rfl
  obtain ⟨-, -, hstable⟩ := Field.stable_under_inheritance
  obtain ⟨i, hi, -, -, hstable⟩ := hstable derived base "x" f hbase hf
  cases hi
  obtain ⟨-, hwrite⟩ := hstable {} ⟨⟨#[], #[], [.ofInt32 300, .object ⟨0⟩]⟩, { heap }⟩ .refl
  obtain ⟨hput, hget, hothers, -⟩ := hwrite (.ofInt32 300) [] rfl
  exact ⟨hbase, hf, rfl, _, hput, hget [], hothers 1 (by decide)⟩

end Stackwright
