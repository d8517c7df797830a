import Stackwright.Builtin
import Stackwright.Proofs.Machine.Aside
import Stackwright.Proofs.Value.Conformance

/-! # Items of arrays

Arrays stay well typed when what is stored into one conforms to the **element type of that array**, which
need not be the element type that the code knows. A store that is made by the untyped base of all arrays
looks at the element type of the array itself.

* **`Heap.ItemsConform h`** — every item of every array conforms to the element type of its array.
* **`Heap.itemsConform_setItem_iff`** — a store keeps the items well typed when what it stores conforms.
* **`Heap.Misfiled h element v`** — what a store by the untyped base gets wrong. -/

namespace Stackwright

/-- The root accepts every type. -/
theorem Ty.object_accepts (t : Ty) : Ty.object.accepts t := by
  simp [accepts, kind]

namespace Heap

variable {h h' : Heap} {a b : ArrayId} {i : Int} {n : Nat} {v x : Value} {t : Ty}

/-! ## (1) More boxes -/

/-- What conforms still conforms when boxes are made. -/
theorem Conforms.adds (hv : h.Conforms v t) (hh : h.Adds h') : h'.Conforms v t := by
  obtain ⟨⟨cells⟩, rfl⟩ := hh
  induction cells generalizing h with
  | nil => simpa using hv
  | cons cell cells ih =>
    have hpushed : h.boxes ++ (cell :: cells).toArray = h.boxes.push cell ++ cells.toArray := by simp
    rw [hpushed]
    exact ih (hv.keep fun _ => keepsTypes_allocBox cell.type cell.content)

/-- Its runtime type is then what it was. -/
theorem Conforms.typeOf_adds (hv : h.Conforms v t) (hh : h.Adds h') : h'.typeOf? v = h.typeOf? v := by
  cases v with
  | array a => simp only [typeOf?, hh.arrayCell]
  | object o => simp only [typeOf?, hh.objectCell]
  | boxed b => simp only [typeOf?, hh.boxCell (index_lt_of_isValue hv.content.1)]
  | _ => rfl

/-- No address conforms to a type. -/
theorem Conforms.ne_address (hv : h.Conforms v t) (p : Location) : v ≠ .address p := by
  rintro rfl
  obtain ⟨good, -, hv⟩ := hv
  exact hv.elim

/-! ## (2) Stores -/

/-- Every item of every array **conforms** to the element type of its array. -/
def ItemsConform (h : Heap) : Prop :=
  ∀ (a : ArrayId) (n : Nat) (v : Value), (h.arrayCell a).items[n]? = some v →
    h.Conforms v (h.arrayCell a).element

theorem ItemsConform.adds (hi : h.ItemsConform) (hh : h.Adds h') : h'.ItemsConform := by
  intro a n v hv
  rw [hh.arrayCell] at hv ⊢
  exact (hi a n v hv).adds hh

/-- An index that passed the check is that of an item. -/
theorem checkItem_ok (hc : h.checkItem a i = .ok ()) : 0 ≤ i ∧ i < h.itemCount a := by
  unfold checkItem at hc
  split at hc
  · assumption
  · cases hc

/-- The cell that is stored into. -/
theorem arrayCell_setItem (hc : h.checkItem a i = .ok ()) : (h.setItem a i v).arrayCell a =
    { h.arrayCell a with items := (h.arrayCell a).items.setIfInBounds i.toNat v } := by
  obtain ⟨hnonneg, hlt⟩ := checkItem_ok hc
  have hindex : a.index < h.arrays.size := by
    by_contra hout
    have hnone : h.arrays[a.index]? = none := Array.getElem?_eq_none (Nat.le_of_not_lt hout)
    simp only [itemCount, arrayCell, Array.getD_eq_getD_getElem?, hnone, Option.getD_none, List.size_toArray,
      List.length_nil] at hlt
    omega
  simp [arrayCell, setItem, Array.getD_eq_getD_getElem?, Array.getElem_modify, hindex]

/-- Every other cell is as it was. -/
theorem arrayCell_setItem_of_ne (hne : b ≠ a) : (h.setItem a i v).arrayCell b = h.arrayCell b := by
  have hindex : a.index ≠ b.index := by
    intro heq
    cases a
    cases b
    exact hne (congrArg ArrayId.mk heq.symm)
  simp [arrayCell, setItem, Array.getD_eq_getD_getElem?, Array.getElem?_modify, hindex]

/-- Element types stay. -/
theorem element_setItem (b : ArrayId) : ((h.setItem a i v).arrayCell b).element = (h.arrayCell b).element := by
  simp only [arrayCell, setItem, Array.getD_eq_getD_getElem?, Array.getElem?_modify]
  split
  · cases h.arrays[b.index]? <;> rfl
  · rfl

/-- What conforms does so whatever the items of arrays are. -/
theorem conforms_setItem_iff : (h.setItem a i v).Conforms x t ↔ h.Conforms x t := by
  constructor
  · exact fun hx => hx.keep fun _ _ => ⟨fun b => (element_setItem b).symm, fun _ _ ht => ht, fun _ _ => rfl⟩
  · exact fun hx => hx.keep fun _ _ => ⟨element_setItem, fun _ _ ht => ht, fun _ _ => rfl⟩

/-- Items that conform still do after a store **exactly when** what is stored conforms. -/
theorem itemsConform_setItem_iff (hi : h.ItemsConform) (hc : h.checkItem a i = .ok ()) :
    (h.setItem a i v).ItemsConform ↔ h.Conforms v (h.arrayCell a).element := by
  obtain ⟨hnonneg, hlt⟩ := checkItem_ok hc
  have hcell : (h.setItem a i v).arrayCell a = _ := arrayCell_setItem hc
  constructor
  · intro hset
    have hitem : ((h.setItem a i v).arrayCell a).items[i.toNat]? = some v := by
      rw [hcell, Array.getElem?_setIfInBounds_self_of_lt]
      rw [itemCount] at hlt
      omega
    have hv := hset a i.toNat v hitem
    rwa [conforms_setItem_iff, element_setItem] at hv
  · intro hv b n x hx
    rw [conforms_setItem_iff, element_setItem]
    -- items of other arrays and at other indices are as they were
    by_cases hb : b = a
    · subst hb
      rw [hcell] at hx
      dsimp only at hx
      rw [Array.getElem?_setIfInBounds] at hx
      split at hx
      · split at hx
        · cases hx
          exact hv
        · cases hx
      · exact hi b n x hx
    · rw [arrayCell_setItem_of_ne hb] at hx
      exact hi b n x hx

/-! ## (3) Zeros -/

mutual

/-- The **zero** of a type conforms to it. -/
theorem conformsGiven_zeroOf (h : Heap) (good : BoxId → Prop) :
    (t : Ty) → h.ConformsGiven good (Value.zeroOf t) t
  | .primitive _ | .enumeration .. => congrArg some (Scalar.kind_ofNumber _ _).symm
  | .struct path is fs => by
    refine ⟨rfl, Ty.beq_rfl _, ?_⟩
    exact allConformGiven_zerosOf h good fs
  | .object | .string | .array _ | .interface .. | .klass .. => rfl

theorem allConformGiven_zerosOf (h : Heap) (good : BoxId → Prop) :
    (fs : List (String × Ty)) → h.AllConformGiven good (Value.zerosOf fs) (fs.map (·.2))
  | [] => trivial
  | (_, t) :: rest => ⟨conformsGiven_zeroOf h good t, allConformGiven_zerosOf h good rest⟩

end

theorem conforms_zeroOf (h : Heap) (t : Ty) : h.Conforms (Value.zeroOf t) t :=
  ⟨fun _ => False, fun _ hb => hb.elim, conformsGiven_zeroOf h _ t⟩

/-! ## (4) Stores by the untyped base -/

/-- What a store by the untyped base **gets wrong**: for an item of a value type it takes an object of
that type as it is, and the content of a box of a type that is stored otherwise. -/
def Misfiled (h : Heap) (element : Ty) (x : Value) : Prop :=
  element.isValue ∧ ∃ f, h.typeOf? x = some f ∧ ((∃ o, x = .object o) ∨ f.storedAs? ≠ element.storedAs?)

end Heap

namespace Host

variable {α β : Type}

/-- A computation after another one runs where that one ended. -/
theorem run_bind (c : Host α) (f : α → Host β) (w : World) :
    (c >>= f).run w = match c.run w with
      | .ok a w => (f a).run w
      | .error r w => .error r w := by
  show EStateM.bind c f w = _
  unfold EStateM.bind
  cases h : c w <;> simp [EStateM.run, h]

/-- An item is set, or the index is refused. -/
theorem run_setItem (a : ArrayId) (i : Int) (v : Value) (w : World) :
    (setItem a i v).run w = match w.heap.checkItem a i with
      | .ok _ => .ok () { w with heap := w.heap.setItem a i v }
      | .error f => .error (.fault f) w := by
  show (do
    ofExcept (w.heap.checkItem a i)
    modifyHeap (·.setItem a i v) : Host Unit).run w = _
  cases w.heap.checkItem a i <;> rfl

end Host

namespace Builtin

open Exec

variable {w w' : World} {element : Ty} {this x y v result : Value} {left : List Value} {e : Halt}

theorem quiet_itemFor (element : Ty) (x : Value) : Quiet (itemFor element x) := by
  refine quiet_heap.bind fun h => ?_
  split
  · exact quiet_pure _
  · dsimp only
    split
    · exact quiet_pure _
    · exact quiet_throw _
  · split
    · split
      · exact quiet_pure _
      · exact quiet_throw _
    · exact quiet_pure _

/-- What a store by the untyped base **makes of a value**, by the type of the items. -/
inductive Filed (h : Heap) (element : Ty) : Value → Value → Prop
  /-- Null stands for the zero of a value type. -/
  | zero (helement : element.isValue) : Filed h element .null (Value.zeroOf element)
  /-- A box is opened. -/
  | content {b : BoxId} (helement : element.isValue) (hb : (h.boxCell b).type.unboxesAs element) :
      Filed h element (.boxed b) (h.getBox b)
  /-- A value whose type is accepted is kept. -/
  | kept {x : Value} (hx : element.isValue → x ≠ .null ∧ ∀ b, x ≠ .boxed b)
      (hacc : ∀ f, h.typeOf? x = some f → element.accepts f) : Filed h element x x

theorem filed_of_itemFor (h : (itemFor element x).run w = .ok v w') : Filed w.heap element x v := by
  -- what is neither null nor a box for a value type is kept if its type is accepted
  have hrest : (element.isValue → x ≠ .null ∧ ∀ b, x ≠ .boxed b) →
      ((w.heap.typeOf? x).elim (pure x) fun found =>
        if element.accepts found then pure x
        else Host.fail (.invalidCast found.path element) : Host Value).run w = .ok v w' →
      Filed w.heap element x v := by
    intro hx hrun
    cases hf : w.heap.typeOf? x with
    | none =>
      rw [hf] at hrun
      cases hrun
      refine .kept hx fun f hf' => ?_
      cases hf.symm.trans hf'
    | some found =>
      rw [hf, Option.elim_some] at hrun
      split at hrun
      · rename_i hacc
        cases hrun
        refine .kept hx fun f hf' => ?_
        cases hf.symm.trans hf'
        exact hacc
      · cases hrun
  cases hvalue : element.isValue with
  | true =>
    cases x with
    | null =>
      rw [itemFor, hvalue] at h
      cases h
      exact .zero hvalue
    | boxed b =>
      have hrun : (if (w.heap.boxCell b).type.unboxesAs element then pure (w.heap.getBox b)
          else Host.fail (.invalidCast (w.heap.boxCell b).type.path element) : Host Value).run w =
            .ok v w' := by
        rw [itemFor, hvalue] at h
        exact h
      split at hrun
      · rename_i hb
        cases hrun
        exact .content hvalue hb
      · cases hrun
    | _ =>
      refine hrest (fun _ => ⟨fun hnull => ?_, fun b hbox => ?_⟩) h
      · cases hnull
      · cases hbox
  | false =>
    refine hrest (fun helement => ?_) ?_
    · cases hvalue.symm.trans helement
    · rw [itemFor, hvalue] at h
      cases x <;> exact h

/-- A value type accepts no array, no string and no handle. -/
theorem not_accepts_of_isValue {t : Ty} (ht : t.isValue) :
    (∀ u, ¬ t.accepts (.array u)) ∧ ¬ t.accepts .string ∧ ¬ t.accepts .typeToken := by
  cases t with
  | primitive p => simp [Ty.accepts, Ty.lineage, Ty.beq_iff, Ty.kind, Ty.arrayBase, Ty.typeToken]
  | enumeration path p is fs => simp [Ty.accepts, Ty.lineage, Ty.beq_iff, Ty.kind, Ty.arrayBase, Ty.typeToken]
  | struct path is fs => simp [Ty.accepts, Ty.lineage, Ty.beq_iff, Ty.kind, Ty.arrayBase, Ty.typeToken]
  | _ => cases ht

/-- What is stored for a reference **conforms to the element type** unless it is misfiled. -/
theorem Filed.conforms_iff {h : Heap} (hv : Filed h element x v) (hx : h.Conforms x .object) :
    h.Conforms v element ↔ ¬ h.Misfiled element x := by
  cases hv with
  | zero helement =>
    refine iff_of_true (h.conforms_zeroOf element) ?_
    rintro ⟨-, f, hf, -⟩
    cases hf
  | @content b helement hb =>
    obtain ⟨hvalue, hcontent⟩ := hx.content
    rw [hcontent.unboxes_iff hvalue hb]
    simp [Heap.Misfiled, Heap.typeOf?, helement]
  | kept hplain hacc =>
    by_cases helement : element.isValue
    · obtain ⟨harray, hstring, hhandle⟩ := not_accepts_of_isValue helement
      obtain ⟨hnull, hbox⟩ := hplain helement
      rcases hx.of_reference rfl with rfl | ⟨f, hf, -⟩
      · exact absurd rfl hnull
      obtain ⟨good, -, hgiven⟩ := hx
      -- of what conforms to objects only an object itself can pass as a value type
      cases x with
      | object o =>
        refine iff_of_false ?_ (not_not.2 ⟨helement, _, rfl, .inl ⟨o, rfl⟩⟩)
        rintro ⟨good, -, hreference, -⟩
        exact Heap.not_isValue_of_isReference hreference helement
      | null => exact absurd rfl hnull
      | boxed b => exact absurd rfl (hbox b)
      | array a => exact absurd (hacc _ rfl) (harray _)
      | text s => exact absurd (hacc _ rfl) hstring
      | handle u => exact absurd (hacc _ rfl) hhandle
      | scalar s => cases hgiven
      | struct u fields => cases hgiven.1
      | address p => exact hgiven.elim
    · have hreference : element.isReference := by simp [Ty.isReference, helement]
      exact iff_of_true ((hx.reference_iff rfl hreference).2 hacc) fun hmis => helement hmis.1

/-- What a store looks at before it sets an item: the array, the index, and what is made of the value. -/
def target (this x y : Value) : Host (ArrayId × Int × Value) := do
  let a ← arrayArgument this
  let i ← Host.expect "integer" y y.index?
  let v ← itemFor ((← Host.heap).arrayCell a).element x
  pure (a, i, v)

theorem quiet_target (this x y : Value) : Quiet (target this x y) := by
  refine Quiet.bind ?_ fun a => (quiet_expect _ _ _).bind fun i => quiet_heap.bind fun h =>
    (quiet_itemFor _ _).bind fun v => quiet_pure _
  cases this <;> first | exact quiet_pure _ | exact quiet_unexpected _ _

/-- What is looked at is an array, and what is made of the value by the type of its items. -/
theorem filed_of_target {a : ArrayId} {i : Int} (h : (target this x y).run w = .ok (a, i, v) w') :
    this = .array a ∧ Filed w.heap (w.heap.arrayCell a).element x v := by
  have harray : ∃ b, this = .array b := by
    cases this with
    | array b => exact ⟨b, rfl⟩
    | _ => cases h
  obtain ⟨b, rfl⟩ := harray
  cases hindex : y.index? with
  | none =>
    rw [target, hindex] at h
    cases h
  | some j =>
    have hrun : (do
        let v ← itemFor (w.heap.arrayCell b).element x
        pure (b, j, v) : Host _).run w = .ok (a, i, v) w' := by
      rw [target, hindex] at h
      exact h
    rw [Host.run_bind] at hrun
    split at hrun
    · rename_i v₁ w₁ hitem
      cases hrun
      exact ⟨rfl, filed_of_itemFor hitem⟩
    · cases hrun

theorem body_storeItem : storeItem.body [this, x, y] = (do
    let (a, i, v) ← target this x y
    Host.setItem a i v
    pure (.null, [this, x, y])) := by
  simp only [storeItem, pureBody, argument, target, bind_assoc, pure_bind, List.getElem?_cons_zero,
    List.getElem?_cons_succ]

/-- A store that is done **sets one item**. -/
theorem storeItem_ok (h : (storeItem.body [this, x, y]).run w = .ok (result, left) w') :
    ∃ a i v, this = .array a ∧ w.heap.checkItem a i = .ok () ∧
      Filed w.heap (w.heap.arrayCell a).element x v ∧
      w' = { w with heap := w.heap.setItem a i v } := by
  rw [body_storeItem, Host.run_bind] at h
  split at h
  · rename_i found w₁ htarget
    obtain rfl := (quiet_target this x y).ok htarget
    obtain ⟨a, i, v⟩ := found
    obtain ⟨rfl, hfiled⟩ := filed_of_target htarget
    dsimp only at h
    rw [Host.run_bind, Host.run_setItem] at h
    cases hcheck : w₁.heap.checkItem a i with
    | error f =>
      rw [hcheck] at h
      cases h
    | ok u =>
      rw [hcheck] at h
      cases h
      exact ⟨a, i, v, rfl, hcheck, hfiled, rfl⟩
  · cases h

/-- A store that stops **changes nothing**. -/
theorem storeItem_error (h : (storeItem.body [this, x, y]).run w = .error e w') : w' = w := by
  rw [body_storeItem, Host.run_bind] at h
  split at h
  · rename_i found w₁ htarget
    obtain rfl := (quiet_target this x y).ok htarget
    obtain ⟨a, i, v⟩ := found
    dsimp only at h
    rw [Host.run_bind, Host.run_setItem] at h
    cases hcheck : w₁.heap.checkItem a i <;> rw [hcheck] at h <;> cases h
    rfl
  · rename_i htarget
    cases h
    exact (quiet_target this x y).error htarget

end Builtin

end Stackwright
