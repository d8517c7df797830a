import Mathlib.Data.List.Forall2
import Stackwright.Proofs.Machine.Aside
import Stackwright.Proofs.Tracing.Shown

/-! # Values under another numbering

A procedure that shows values declares locals of its own, and makes boxes of its own when it runs. So the same
value has other numbers in it: those of the locals that an address names, and those of boxes. A **numbering**
says which of them belong together; arrays, objects and static fields have the same numbers in both runs.

* **`Numbering`** — which locals and which boxes of two runs belong together.
* **`Value.Renumbered ν v v'`** — the same value, but for the numbers in it.
* **`Heap.Renumbered ν h h'`** — the same cells, but for boxes that only the second heap has.
* **`Heap.Closed h`** — a heap whose values name no local. -/

namespace Stackwright

namespace Renumbers

variable {r : Nat → Nat → Prop} {n m : Nat}

/-- A number belongs to none that is lower. -/
theorem le_of (h : Renumbers r n m) {i k : Nat} (hr : r i k) : i ≤ k := by
  induction i generalizing k with
  | zero => exact Nat.zero_le k
  | succ i ih =>
    have hi := (h.bounds _ _ hr).1
    obtain ⟨j, hj⟩ := h.total i (by omega)
    have hlt := (h.order i j (i + 1) k hj hr).1 (Nat.lt_succ_self i)
    have := ih hj
    omega

/-- So the second bound is no lower. -/
theorem bound_le (h : Renumbers r n m) : n ≤ m := by
  cases n with
  | zero => exact Nat.zero_le m
  | succ n =>
    obtain ⟨k, hk⟩ := h.total n (Nat.lt_succ_self n)
    have := h.le_of hk
    have := (h.bounds _ _ hk).2
    omega

end Renumbers

/-- Which locals and which boxes of two runs **belong together**. -/
structure Numbering where
  /-- The numbers of locals. -/
  slots : Nat → Nat → Prop
  /-- The numbers of boxes. -/
  boxes : Nat → Nat → Prop

namespace Numbering

/-- A numbering that knows more boxes. -/
structure Le (ν ν' : Numbering) : Prop where
  /-- Locals have the numbers they had. -/
  slots : ν'.slots = ν.slots
  /-- Boxes stay together. -/
  boxes : ∀ i k, ν.boxes i k → ν'.boxes i k

theorem Le.trans {ν ν' ν'' : Numbering} (h : ν.Le ν') (h' : ν'.Le ν'') : ν.Le ν'' :=
  ⟨h'.slots.trans h.slots, fun i k hk => h'.boxes i k (h.boxes i k hk)⟩

instance : Preorder Numbering where
  le := Le
  le_refl _ := ⟨rfl, fun _ _ h => h⟩
  le_trans _ _ _ h h' := h.trans h'

/-- One more box of each run belongs together. -/
def withBox (ν : Numbering) (n m : Nat) : Numbering :=
  { ν with boxes := fun i k => ν.boxes i k ∨ i = n ∧ k = m }

theorem le_withBox (ν : Numbering) (n m : Nat) : ν ≤ ν.withBox n m := ⟨rfl, fun _ _ h => .inl h⟩

/-- A numbering of as many boxes knows no more. -/
theorem eq_of_le {ν ν' : Numbering} {n k k' : Nat} (hle : ν ≤ ν') (h : Renumbers ν.boxes n k)
    (h' : Renumbers ν'.boxes n k') : ν' = ν := by
  obtain ⟨slots, boxes⟩ := ν
  obtain ⟨slots', boxes'⟩ := ν'
  obtain rfl : slots' = slots := hle.slots
  congr 1
  funext i j
  refine propext ⟨fun hij => ?_, hle.boxes i j⟩
  obtain ⟨j', hj'⟩ := h.total i (h'.bounds i j hij).1
  obtain rfl : j = j' := (h'.eq_iff hij (hle.boxes i j' hj')).1 rfl
  exact hj'

end Numbering

/-! ## Arrays of what belongs together -/

/-- Two arrays **match** if they have one size and what is at the same place belongs together. -/
structure Matches {α β : Type} (R : α → β → Prop) (xs : Array α) (ys : Array β) : Prop where
  /-- There are as many. -/
  size : ys.size = xs.size
  /-- What is at one place belongs together. -/
  each : ∀ (i : Nat) (x : α) (y : β), xs[i]? = some x → ys[i]? = some y → R x y

namespace Matches

variable {α β : Type} {R S : α → β → Prop} {xs : Array α} {ys : Array β} {x : α} {y : β}

theorem imp (h : Matches R xs ys) (hRS : ∀ x y, R x y → S x y) : Matches S xs ys :=
  ⟨h.size, fun i x y hx hy => hRS _ _ (h.each i x y hx hy)⟩

theorem refl {R : α → α → Prop} (h : ∀ x ∈ xs, R x x) : Matches R xs xs := by
  refine ⟨rfl, fun i x y hx hy => ?_⟩
  cases hx.symm.trans hy
  exact h x (Array.mem_of_getElem? hx)

theorem of_forall₂ {xs : List α} {ys : List β} (h : List.Forall₂ R xs ys) : Matches R xs.toArray ys.toArray := by
  refine ⟨h.length_eq.symm, fun i x y hx hy => ?_⟩
  rw [List.getElem?_toArray] at hx hy
  obtain ⟨hi, rfl⟩ := List.getElem?_eq_some_iff.1 hx
  obtain ⟨hi', rfl⟩ := List.getElem?_eq_some_iff.1 hy
  exact (List.forall₂_iff_get.1 h).2 i hi hi'

theorem forall₂ (h : Matches R xs ys) : List.Forall₂ R xs.toList ys.toList := by
  refine List.forall₂_iff_get.2 ⟨h.size.symm, fun i hi hi' => ?_⟩
  exact h.each i _ _ (Array.getElem?_eq_getElem hi) (Array.getElem?_eq_getElem hi')

/-- A place is in both arrays or in neither. -/
theorem get (h : Matches R xs ys) (i : Nat) : Option.Rel R xs[i]? ys[i]? := by
  rcases Nat.lt_or_ge i xs.size with hi | hi
  · have hi' : i < ys.size := h.size ▸ hi
    have hx := Array.getElem?_eq_getElem hi
    have hy := Array.getElem?_eq_getElem hi'
    rw [hx, hy]
    exact .some (h.each i _ _ hx hy)
  · rw [Array.getElem?_eq_none hi, Array.getElem?_eq_none (h.size.symm ▸ hi)]
    exact .none

theorem getD (h : Matches R xs ys) (i : Nat) (hxy : R x y) : R (xs.getD i x) (ys.getD i y) := by
  rw [Array.getD_eq_getD_getElem?, Array.getD_eq_getD_getElem?]
  generalize xs[i]? = a, ys[i]? = b, h.get i = hget
  cases hget with
  | some hr => exact hr
  | none => exact hxy

theorem push (h : Matches R xs ys) (hxy : R x y) : Matches R (xs.push x) (ys.push y) := by
  refine ⟨by rw [Array.size_push, Array.size_push, h.size], fun i a b ha hb => ?_⟩
  rw [Array.getElem?_push] at ha hb
  by_cases hi : i = xs.size
  · rw [if_pos hi] at ha
    rw [if_pos (hi.trans h.size.symm)] at hb
    cases ha
    cases hb
    exact hxy
  · rw [if_neg hi] at ha
    rw [if_neg (fun heq => hi (heq.trans h.size))] at hb
    exact h.each i a b ha hb

theorem set (h : Matches R xs ys) (i : Nat) (hxy : R x y) :
    Matches R (xs.setIfInBounds i x) (ys.setIfInBounds i y) := by
  refine ⟨by rw [Array.size_setIfInBounds, Array.size_setIfInBounds, h.size], fun j a b ha hb => ?_⟩
  rw [Array.getElem?_setIfInBounds] at ha hb
  by_cases hij : i = j
  · rw [if_pos hij] at ha hb
    split at ha
    · rename_i hi
      rw [if_pos (h.size ▸ hi)] at hb
      cases ha
      cases hb
      exact hxy
    · cases ha
  · rw [if_neg hij] at ha hb
    exact h.each j a b ha hb

theorem modify (h : Matches R xs ys) (i : Nat) {f : α → α} {g : β → β} (hfg : ∀ x y, R x y → R (f x) (g y)) :
    Matches R (xs.modify i f) (ys.modify i g) := by
  refine ⟨by rw [Array.size_modify, Array.size_modify, h.size], fun j a b ha hb => ?_⟩
  rw [Array.getElem?_modify] at ha hb
  by_cases hij : i = j
  · rw [if_pos hij] at ha hb
    obtain ⟨x, hx, rfl⟩ := Option.map_eq_some_iff.1 ha
    obtain ⟨y, hy, rfl⟩ := Option.map_eq_some_iff.1 hb
    exact hfg x y (h.each j x y hx hy)
  · rw [if_neg hij] at ha hb
    exact h.each j a b ha hb

theorem replicate (n : Nat) (hxy : R x y) : Matches R (Array.replicate n x) (Array.replicate n y) := by
  refine ⟨by rw [Array.size_replicate, Array.size_replicate], fun i a b ha hb => ?_⟩
  rw [Array.getElem?_replicate] at ha hb
  split at ha
  · rename_i hi
    rw [if_pos hi] at hb
    cases ha
    cases hb
    exact hxy
  · cases ha

end Matches

/-! ## Values -/

/-- The same location, but for the numbers of locals and boxes. -/
inductive Location.Renumbered (ν : Numbering) : Location → Location → Prop
  | argument (i : Nat) : Renumbered ν (.argument i) (.argument i)
  | «variable» {i k : Nat} (h : ν.slots i k) : Renumbered ν (.variable i) (.variable k)
  | element (a : ArrayId) (i : Nat) : Renumbered ν (.element a i) (.element a i)
  | boxed {b b' : BoxId} (h : ν.boxes b.index b'.index) : Renumbered ν (.boxed b) (.boxed b')

/-- The same value, but for the **numbers** of locals and boxes in it. -/
inductive Value.Renumbered (ν : Numbering) : Value → Value → Prop
  /-- A constant has no numbers in it. -/
  | constant {v : Value} (h : v.isConstant) : Renumbered ν v v
  /-- Arrays have the same number. -/
  | array (a : ArrayId) : Renumbered ν (.array a) (.array a)
  /-- Objects have the same number. -/
  | object (o : ObjectId) : Renumbered ν (.object o) (.object o)
  /-- Structs of one type have the same fields, but for the numbers in them. -/
  | struct (t : Ty) {xs ys : List Value} (hlength : ys.length = xs.length)
      (hfields : ∀ (i : Nat) (x y : Value), xs[i]? = some x → ys[i]? = some y → Renumbered ν x y) :
      Renumbered ν (.struct t xs) (.struct t ys)
  /-- Boxes belong together. -/
  | boxed {b b' : BoxId} (h : ν.boxes b.index b'.index) : Renumbered ν (.boxed b) (.boxed b')
  /-- Addresses are of the same location. -/
  | address {p p' : Location} (h : p.Renumbered ν p') : Renumbered ν (.address p) (.address p')

theorem Location.Renumbered.imp {ν ν' : Numbering} (hslots : ∀ i k, ν.slots i k → ν'.slots i k)
    (hboxes : ∀ i k, ν.boxes i k → ν'.boxes i k) {p p' : Location} (h : p.Renumbered ν p') : p.Renumbered ν' p' := by
  cases h with
  | argument i => exact .argument i
  | «variable» h => exact .variable (hslots _ _ h)
  | element a i => exact .element a i
  | boxed h => exact .boxed (hboxes _ _ h)

theorem Location.Renumbered.mono {ν ν' : Numbering} (hle : ν ≤ ν') {p p' : Location} (h : p.Renumbered ν p') :
    p.Renumbered ν' p' :=
  h.imp (fun _ _ hs => by rw [hle.slots]; exact hs) hle.boxes

namespace Value

variable {ν ν' : Numbering} {v v' : Value}

theorem Renumbered.imp (hslots : ∀ i k, ν.slots i k → ν'.slots i k) (hboxes : ∀ i k, ν.boxes i k → ν'.boxes i k)
    (h : v.Renumbered ν v') : v.Renumbered ν' v' := by
  induction h with
  | constant h => exact .constant h
  | array a => exact .array a
  | object o => exact .object o
  | struct t hlength _ ih => exact .struct t hlength ih
  | boxed h => exact .boxed (hboxes _ _ h)
  | address h => exact .address (h.imp hslots hboxes)

theorem Renumbered.mono (hle : ν ≤ ν') (h : v.Renumbered ν v') : v.Renumbered ν' v' :=
  h.imp (fun _ _ hs => by rw [hle.slots]; exact hs) hle.boxes

/-- Structs whose fields belong together, in order. -/
theorem Renumbered.fields (t : Ty) {xs ys : List Value} (h : List.Forall₂ (Renumbered ν) xs ys) :
    (Value.struct t xs).Renumbered ν (.struct t ys) := by
  obtain ⟨hlength, hget⟩ := List.forall₂_iff_get.1 h
  refine .struct t hlength.symm fun i x y hx hy => ?_
  obtain ⟨hi, rfl⟩ := List.getElem?_eq_some_iff.1 hx
  obtain ⟨hi', rfl⟩ := List.getElem?_eq_some_iff.1 hy
  exact hget i hi hi'

theorem Renumbered.exists_boxed {b : BoxId} (h : (Value.boxed b).Renumbered ν v') :
    ∃ b', v' = .boxed b' ∧ ν.boxes b.index b'.index := by
  cases h with
  | constant h => cases h
  | boxed h => exact ⟨_, rfl, h⟩

mutual

/-- The zero of a type has no numbers in it. -/
theorem renumbered_zeroOf (ν : Numbering) : (t : Ty) → (zeroOf t).Renumbered ν (zeroOf t)
  | .primitive p => by rw [zeroOf]; exact .constant rfl
  | .enumeration _ p _ _ => by rw [zeroOf]; exact .constant rfl
  | .struct path interfaces fields => by
    rw [zeroOf]
    exact .fields _ (renumbered_zerosOf ν fields)
  | .object | .string | .array _ | .interface .. | .klass .. => by
    rw [zeroOf]
    exact .constant rfl

/-- Nor have the zeros of fields. -/
theorem renumbered_zerosOf (ν : Numbering) :
    (fields : List (String × Ty)) → List.Forall₂ (Renumbered ν) (zerosOf fields) (zerosOf fields)
  | [] => by rw [zerosOf]; exact .nil
  | (_, type) :: rest => by
    rw [zerosOf]
    exact .cons (renumbered_zeroOf ν type) (renumbered_zerosOf ν rest)

end

namespace Renumbered

variable (h : v.Renumbered ν v')

include h

theorem scalar? : v'.scalar? = v.scalar? := by
  cases h <;> rfl

theorem text? : v'.text? = v.text? := by
  cases h <;> rfl

theorem isNull : v'.isNull = v.isNull := by
  cases h <;> rfl

theorem condition? : v'.condition? = v.condition? := by
  cases h <;> rfl

theorem index? : v'.index? = v.index? := by
  cases h <;> rfl

theorem convert? (k : ScalarKind) : Option.Rel (Renumbered ν) (v.convert? k) (v'.convert? k) := by
  cases h with
  | @constant v h =>
    cases v with
    | scalar s => exact .some (.constant rfl)
    | _ => exact .none
  | _ => exact .none

theorem fit (k : Option ScalarKind) : (Value.fit k v).Renumbered ν (Value.fit k v') := by
  cases k with
  | none => rwa [fit_none, fit_none]
  | some k =>
    cases h with
    | @constant v h =>
      cases v with
      | scalar s => exact .constant rfl
      | _ => exact .constant h
    | array a => exact .array a
    | object o => exact .object o
    | struct t hlength hfields => exact .struct t hlength hfields
    | boxed h => exact .boxed h
    | address h => exact .address h

end Renumbered

end Value

/-! ## Heaps -/

/-- The same array, but for the numbers in its items. -/
structure ArrayCell.Renumbered (ν : Numbering) (c c' : ArrayCell) : Prop where
  /-- The items have one declared type. -/
  element : c'.element = c.element
  /-- The items belong together. -/
  items : Matches (Value.Renumbered ν) c.items c'.items

/-- The same object, but for the numbers in its fields. -/
structure ObjectCell.Renumbered (ν : Numbering) (c c' : ObjectCell) : Prop where
  /-- The objects have one type. -/
  type : c'.type = c.type
  /-- The fields belong together. -/
  fields : Matches (Value.Renumbered ν) c.fields c'.fields

/-- The same box, but for the numbers in its content. -/
structure BoxCell.Renumbered (ν : Numbering) (c c' : BoxCell) : Prop where
  /-- The boxes have one type. -/
  type : c'.type = c.type
  /-- The contents belong together. -/
  content : c.content.Renumbered ν c'.content

/-- The same heap, but for the **numbers** of boxes, and for boxes that only the second heap has. -/
structure Heap.Renumbered (ν : Numbering) (h h' : Heap) : Prop where
  /-- The arrays are the same. -/
  arrays : Matches (ArrayCell.Renumbered ν) h.arrays h'.arrays
  /-- The objects are the same. -/
  objects : Matches (ObjectCell.Renumbered ν) h.objects h'.objects
  /-- The static fields are the same. -/
  statics : Matches (Value.Renumbered ν) h.statics h'.statics
  /-- Each box of the first heap belongs to one of the second, in order. -/
  order : Renumbers ν.boxes h.boxes.size h'.boxes.size
  /-- Boxes that belong together are the same. -/
  boxes : ∀ b b' : BoxId, ν.boxes b.index b'.index → (h.boxCell b).Renumbered ν (h'.boxCell b')

section cells

variable {ν ν' : Numbering} (hle : ν ≤ ν')

include hle

theorem Matches.values {xs ys : Array Value} (h : Matches (Value.Renumbered ν) xs ys) :
    Matches (Value.Renumbered ν') xs ys :=
  h.imp fun _ _ hv => hv.mono hle

theorem ArrayCell.Renumbered.mono {c c' : ArrayCell} (h : c.Renumbered ν c') : c.Renumbered ν' c' :=
  ⟨h.element, h.items.values hle⟩

theorem ObjectCell.Renumbered.mono {c c' : ObjectCell} (h : c.Renumbered ν c') : c.Renumbered ν' c' :=
  ⟨h.type, h.fields.values hle⟩

theorem BoxCell.Renumbered.mono {c c' : BoxCell} (h : c.Renumbered ν c') : c.Renumbered ν' c' :=
  ⟨h.type, h.content.mono hle⟩

end cells

namespace Heap.Renumbered

variable {ν : Numbering} {h h' : Heap} {v v' : Value} {b b' : BoxId} (hh : h.Renumbered ν h')

include hh

theorem arrayCell (a : ArrayId) : (h.arrayCell a).Renumbered ν (h'.arrayCell a) :=
  hh.arrays.getD a.index ⟨rfl, .of_forall₂ .nil⟩

theorem itemCount (a : ArrayId) : h'.itemCount a = h.itemCount a := (hh.arrayCell a).items.size

theorem objectCell (o : ObjectId) : (h.objectCell o).Renumbered ν (h'.objectCell o) :=
  hh.objects.getD o.index ⟨rfl, .of_forall₂ .nil⟩

theorem getBox (hb : ν.boxes b.index b'.index) : (h.getBox b).Renumbered ν (h'.getBox b') :=
  (hh.boxes b b' hb).content

theorem getStatic (i : StaticId) : (h.getStatic i).Renumbered ν (h'.getStatic i) :=
  hh.statics.getD i.index (.constant rfl)

/-- Boxes are the same box if those that they belong to are. -/
theorem box_eq {c c' : BoxId} (hb : ν.boxes b.index b'.index) (hc : ν.boxes c.index c'.index) :
    b = c ↔ b' = c' := by
  obtain ⟨b⟩ := b
  obtain ⟨b'⟩ := b'
  obtain ⟨c⟩ := c
  obtain ⟨c'⟩ := c'
  rw [BoxId.mk.injEq, BoxId.mk.injEq, hh.order.eq_iff hb hc]

theorem typeOf? (hv : v.Renumbered ν v') : h'.typeOf? v' = h.typeOf? v := by
  cases hv with
  | @constant v hc =>
    cases v with
    | null | scalar _ | text _ | handle _ => rfl
    | _ => cases hc
  | array a => exact congrArg (some ∘ Ty.array) (hh.arrayCell a).element
  | object o => exact congrArg some (hh.objectCell o).type
  | struct t => rfl
  | boxed hb => exact congrArg some (hh.boxes _ _ hb).type
  | address _ => rfl

/-- The result of a reading, or the same fault. -/
theorem getItem (a : ArrayId) (i : Int) :
    (∃ v v', h.getItem a i = .ok v ∧ h'.getItem a i = .ok v' ∧ v.Renumbered ν v') ∨
      ∃ f, h.getItem a i = .error f ∧ h'.getItem a i = .error f := by
  have hcell := hh.arrayCell a
  simp only [Heap.getItem, hcell.items.size]
  split
  · exact .inr ⟨_, rfl, rfl⟩
  · generalize (h.arrayCell a).items[i.toNat]? = x, (h'.arrayCell a).items[i.toNat]? = y,
      hcell.items.get i.toNat = hget
    cases hget with
    | some hv => exact .inl ⟨_, _, rfl, rfl, hv⟩
    | none => exact .inr ⟨_, rfl, rfl⟩

theorem getField (o : ObjectId) (i : Nat) :
    (∃ v v', h.getField o i = .ok v ∧ h'.getField o i = .ok v' ∧ v.Renumbered ν v') ∨
      ∃ f, h.getField o i = .error f ∧ h'.getField o i = .error f := by
  have hcell := hh.objectCell o
  simp only [Heap.getField, hcell.fields.size]
  generalize (h.objectCell o).fields[i]? = x, (h'.objectCell o).fields[i]? = y, hcell.fields.get i = hget
  cases hget with
  | some hv => exact .inl ⟨_, _, rfl, rfl, hv⟩
  | none => exact .inr ⟨_, rfl, rfl⟩

theorem checkItem (a : ArrayId) (i : Int) : h'.checkItem a i = h.checkItem a i := by
  rw [Heap.checkItem, Heap.checkItem, hh.itemCount]

theorem checkField (o : ObjectId) (i : Nat) : h'.checkField o i = h.checkField o i := by
  simp only [Heap.checkField, (hh.objectCell o).fields.size]

/-! ### Changes -/

theorem setItem (a : ArrayId) (i : Int) (hv : v.Renumbered ν v') :
    (h.setItem a i v).Renumbered ν (h'.setItem a i v') :=
  { hh with
    arrays := by
      simp only [Heap.setItem]
      refine hh.arrays.modify a.index ?_
      exact fun _ _ hc => ⟨hc.element, hc.items.set i.toNat hv⟩ }

theorem setField (o : ObjectId) (i : Nat) (hv : v.Renumbered ν v') :
    (h.setField o i v).Renumbered ν (h'.setField o i v') :=
  { hh with
    objects := by
      simp only [Heap.setField]
      refine hh.objects.modify o.index ?_
      exact fun _ _ hc => ⟨hc.type, hc.fields.set i hv⟩ }

theorem setStatic (i : StaticId) (hv : v.Renumbered ν v') :
    (h.setStatic i v).Renumbered ν (h'.setStatic i v') :=
  { hh with statics := hh.statics.set i.index hv }

theorem allocArray (t : Ty) {xs ys : Array Value} (hxs : Matches (Value.Renumbered ν) xs ys) :
    (h'.allocArray t ys).1 = (h.allocArray t xs).1 ∧
      (h.allocArray t xs).2.Renumbered ν (h'.allocArray t ys).2 :=
  ⟨congrArg ArrayId.mk hh.arrays.size, { hh with arrays := hh.arrays.push ⟨rfl, hxs⟩ }⟩

theorem allocObject (t : Ty) :
    (h'.allocObject t).1 = (h.allocObject t).1 ∧ (h.allocObject t).2.Renumbered ν (h'.allocObject t).2 :=
  ⟨congrArg ObjectId.mk hh.objects.size,
    { hh with objects := hh.objects.push ⟨rfl, .of_forall₂ (Value.renumbered_zerosOf ν t.fields)⟩ }⟩

theorem setBox (hb : ν.boxes b.index b'.index) (hv : v.Renumbered ν v') :
    (h.setBox b v).Renumbered ν (h'.setBox b' v') := by
  -- a cell changes in the one heap where it does in the other, since no two boxes belong to one
  have hcell : ∀ (h : Heap) (b c : BoxId) (v : Value), c.index < h.boxes.size →
      (h.setBox b v).boxCell c = if b = c then { h.boxCell c with content := v } else h.boxCell c := by
    intro h b c v hc
    rw [Heap.boxCell, Heap.boxCell, Heap.setBox, Array.getD_eq_getD_getElem?, Array.getD_eq_getD_getElem?,
      Array.getElem?_modify, Array.getElem?_eq_getElem hc]
    by_cases hbc : b = c
    · rw [if_pos hbc, if_pos (congrArg BoxId.index hbc)]
      rfl
    · rw [if_neg hbc, if_neg fun hindex => hbc (by cases b; cases c; exact congrArg BoxId.mk hindex)]
  have hsize : ∀ (h : Heap) (b : BoxId) (v : Value), (h.setBox b v).boxes.size = h.boxes.size :=
    fun h b v => Array.size_modify
  exact { hh with
    order := by rw [hsize, hsize]; exact hh.order
    boxes := by
      intro c c' hc
      have hbounds := hh.order.bounds _ _ hc
      rw [hcell h b c v hbounds.1, hcell h' b' c' v' hbounds.2]
      by_cases hbc : b = c
      · rw [if_pos hbc, if_pos ((hh.box_eq hb hc).1 hbc)]
        exact ⟨(hh.boxes c c' hc).type, hv⟩
      · rw [if_neg hbc, if_neg (mt (hh.box_eq hb hc).2 hbc)]
        exact hh.boxes c c' hc }

/-- A new box of each heap belongs together. -/
theorem allocBox (t : Ty) (hv : v.Renumbered ν v') :
    (h.allocBox t v).2.Renumbered (ν.withBox h.boxes.size h'.boxes.size) (h'.allocBox t v').2 := by
  have hle := ν.le_withBox h.boxes.size h'.boxes.size
  have hold : ∀ (h : Heap) (c : BoxId) (v : Value), c.index < h.boxes.size →
      (h.allocBox t v).2.boxCell c = h.boxCell c := by
    intro h c v hc
    rw [Heap.boxCell, Heap.boxCell, Heap.allocBox, Array.getD_eq_getD_getElem?, Array.getD_eq_getD_getElem?,
      Array.getElem?_push_lt hc, Array.getElem?_eq_getElem hc]
  have hnew : ∀ (h : Heap) (c : BoxId) (v : Value), c.index = h.boxes.size →
      (h.allocBox t v).2.boxCell c = ⟨t, v⟩ := by
    intro h c v hc
    rw [Heap.boxCell, Heap.allocBox, Array.getD_eq_getD_getElem?, hc, Array.getElem?_push_size]
    rfl
  exact {
    arrays := hh.arrays.imp fun _ _ hc => hc.mono hle
    objects := hh.objects.imp fun _ _ hc => hc.mono hle
    statics := hh.statics.values hle
    order := by
      rw [Heap.allocBox, Heap.allocBox, Array.size_push, Array.size_push]
      exact hh.order.push
    boxes := by
      rintro c c' (hc | ⟨hc, hc'⟩)
      · have hbounds := hh.order.bounds _ _ hc
        rw [hold h c v hbounds.1, hold h' c' v' hbounds.2]
        exact (hh.boxes c c' hc).mono hle
      · rw [hnew h c v hc, hnew h' c' v' hc']
        exact ⟨rfl, hv.mono hle⟩ }

/-- Boxes that only the second heap has are no matter. -/
theorem adds {h'' : Heap} (hadds : h'.Adds h'') : h.Renumbered ν h'' := by
  obtain ⟨more, rfl⟩ := hadds
  refine { hh with order := hh.order.more (by simp), boxes := fun b b' hb => ?_ }
  have hlt := (hh.order.bounds _ _ hb).2
  have hcell : Heap.boxCell { h' with boxes := h'.boxes ++ more } b' = h'.boxCell b' := by
    rw [Heap.boxCell, Heap.boxCell, Array.getD_eq_getD_getElem?, Array.getD_eq_getD_getElem?,
      Array.getElem?_append_left hlt]
  rw [hcell]
  exact hh.boxes b b' hb

end Heap.Renumbered

/-! ## Closed heaps -/

namespace Numbering

/-- Locals that belong together, and the boxes of **one heap**, each with its own number. -/
def of (h : Heap) (slots : Nat → Nat → Prop) : Numbering := ⟨slots, fun i k => i = k ∧ i < h.boxes.size⟩

end Numbering

namespace Heap

/-- A value is **closed** in a heap: it names no local, and no box but those of the heap. -/
def Closes (h : Heap) (v : Value) : Prop := v.Renumbered (.of h fun _ _ => False) v

/-- A heap is **closed** if each value in it is. -/
structure Closed (h : Heap) : Prop where
  /-- Items are closed. -/
  items : ∀ c ∈ h.arrays, ∀ v ∈ c.items, h.Closes v
  /-- Fields are closed. -/
  fields : ∀ c ∈ h.objects, ∀ v ∈ c.fields, h.Closes v
  /-- Static fields are closed. -/
  statics : ∀ v ∈ h.statics, h.Closes v
  /-- What is in boxes is closed. -/
  contents : ∀ c ∈ h.boxes, h.Closes c.content

variable {h : Heap} {v : Value}

/-- What names no local is the same whichever locals belong together. -/
theorem Closes.renumbered (hv : h.Closes v) (slots : Nat → Nat → Prop) : v.Renumbered (.of h slots) v := by
  have hself : v.Renumbered (.of h fun _ _ => False) v := hv
  refine hself.imp ?_ ?_
  · exact fun _ _ => False.elim
  · exact fun _ _ hb => hb

/-- So is a closed heap. -/
theorem Closed.renumbered (hh : h.Closed) (slots : Nat → Nat → Prop) : h.Renumbered (.of h slots) h where
  arrays := .refl fun c hc => ⟨rfl, .refl fun v hv => (hh.items c hc v hv).renumbered slots⟩
  objects := .refl fun c hc => ⟨rfl, .refl fun v hv => (hh.fields c hc v hv).renumbered slots⟩
  statics := .refl fun v hv => (hh.statics v hv).renumbered slots
  order := {
    total := fun i hi => ⟨i, rfl, hi⟩
    bounds := by
      rintro i k ⟨rfl, hi⟩
      exact ⟨hi, hi⟩
    order := by
      rintro i k i' k' ⟨rfl, -⟩ ⟨rfl, -⟩
      exact Iff.rfl }
  boxes := by
    rintro ⟨i⟩ ⟨k⟩ ⟨hik, hi⟩
    obtain rfl : i = k := hik
    have hi : i < h.boxes.size := hi
    have hcell : h.boxCell ⟨i⟩ ∈ h.boxes := by
      rw [boxCell, Array.getD_eq_getD_getElem?, Array.getElem?_eq_getElem hi]
      exact Array.getElem_mem hi
    exact ⟨rfl, (hh.contents _ hcell).renumbered slots⟩

end Heap

end Stackwright
