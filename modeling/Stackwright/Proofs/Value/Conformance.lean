import Mathlib.Logic.Basic
import Stackwright.Ty.Acceptance
import Stackwright.Value.Heap

/-! # Conformance

A value **conforms** to a type in a heap: a scalar has the kind that the type is stored as, a struct is of
that struct type and its fields conform to their types, and whatever else a location of a reference type
holds is null or has a runtime type that the type accepts. A box holds a value that conforms to the type
it was boxed as, which is a value type. Boxes may refer to one another in a cycle, so conformance is the
greatest relation of this kind.

* **`Heap.ConformsGiven h good v t`** — the value conforms when the good boxes do.
* **`Heap.GoodBoxes h good`** — the good boxes conform.
* **`Heap.Conforms h v t`** — the value conforms, given some good boxes. -/

namespace Stackwright

namespace Heap

/-! ## Definition -/

mutual

/-- Whether a value **conforms** to a type, given which boxes are good. -/
def ConformsGiven (h : Heap) (good : BoxId → Prop) : Value → Ty → Prop
  | .scalar s, t => t.storedAs? = some s.kind
  | .struct u fields, t => t.isStruct ∧ u == t ∧ h.AllConformGiven good fields (u.fields.map (·.2))
  | .null, t => t.isReference
  | .text _, t => t.isReference ∧ t.accepts .string
  | .handle _, t => t.isReference ∧ t.accepts .typeToken
  | .array a, t => t.isReference ∧ t.accepts (.array (h.arrayCell a).element)
  | .object o, t => t.isReference ∧ t.accepts (h.objectCell o).type
  | .boxed b, t => t.isReference ∧ t.accepts (h.boxCell b).type ∧ good b
  | .address _, _ => False

/-- Whether values conform to types, position by position. -/
def AllConformGiven (h : Heap) (good : BoxId → Prop) : List Value → List Ty → Prop
  | [], [] => True
  | v :: vs, t :: ts => h.ConformsGiven good v t ∧ h.AllConformGiven good vs ts
  | _, _ => False

end

/-- The **good boxes** hold values that conform to the value types they were boxed as. -/
def GoodBoxes (h : Heap) (good : BoxId → Prop) : Prop :=
  ∀ b, good b → (h.boxCell b).type.isValue ∧ h.ConformsGiven good (h.getBox b) (h.boxCell b).type

/-- A value **conforms** to a type. -/
def Conforms (h : Heap) (v : Value) (t : Ty) : Prop :=
  ∃ good, h.GoodBoxes good ∧ h.ConformsGiven good v t

variable {h : Heap} {good good' : BoxId → Prop} {v : Value} {s t : Ty}

/-! ## What conforms to which types -/

/-- No type is both shared and copied. -/
theorem not_isValue_of_isReference (ht : t.isReference) : ¬ t.isValue := by
  intro hvalue
  rw [Ty.isReference, hvalue] at ht
  cases ht

/-- What conforms to a value type is a scalar of its kind or a struct of it. -/
theorem ConformsGiven.of_value (hv : h.ConformsGiven good v t) (ht : t.isValue) :
    (∃ x, v = .scalar x ∧ t.storedAs? = some x.kind) ∨
      ∃ u fields, v = .struct u fields ∧ t.isStruct ∧ u == t ∧
        h.AllConformGiven good fields (u.fields.map (·.2)) := by
  have hnot : ¬ t.isReference := by simp [Ty.isReference, ht]
  cases v with
  | scalar x => exact .inl ⟨x, rfl, hv⟩
  | struct u fields => exact .inr ⟨u, fields, rfl, hv⟩
  | null => exact absurd hv hnot
  | address p => exact hv.elim
  | _ => exact absurd hv.1 hnot

/-- A type that is stored as a scalar, or a struct type, is a value type. -/
theorem isValue_of_storedAs {k : ScalarKind} (ht : t.storedAs? = some k) : t.isValue := by
  cases t <;> first | rfl | cases ht

/-- What is of no value type is stored as it is. -/
theorem storedAs_of_not_isValue (ht : ¬ t.isValue) : t.storedAs? = none := by
  cases hk : t.storedAs? with
  | none => rfl
  | some k => exact absurd (isValue_of_storedAs hk) ht

theorem isValue_of_isStruct (ht : t.isStruct) : t.isValue := by
  cases t <;> first | rfl | cases ht

/-- What conforms to a reference type is null or has a runtime type that the type accepts. -/
theorem ConformsGiven.of_reference (hv : h.ConformsGiven good v t) (ht : t.isReference) :
    v = .null ∨ ∃ f, h.typeOf? v = some f ∧ t.accepts f := by
  have hnot := not_isValue_of_isReference ht
  cases v with
  | null => exact .inl rfl
  | scalar x => exact absurd (isValue_of_storedAs hv) hnot
  | struct u fields => exact absurd (isValue_of_isStruct hv.1) hnot
  | address p => exact hv.elim
  | boxed b => exact .inr ⟨_, rfl, hv.2.1⟩
  | _ => exact .inr ⟨_, rfl, hv.2⟩

/-- What conforms to one reference type conforms to another that accepts its runtime type. -/
theorem ConformsGiven.to_reference (hv : h.ConformsGiven good v s) (hs : s.isReference)
    (ht : t.isReference) (hf : ∀ f, h.typeOf? v = some f → t.accepts f) :
    h.ConformsGiven good v t := by
  have hnot := not_isValue_of_isReference hs
  cases v with
  | null => exact ht
  | scalar x => exact absurd (isValue_of_storedAs hv) hnot
  | struct u fields => exact absurd (isValue_of_isStruct hv.1) hnot
  | address p => exact hv.elim
  | boxed b => exact ⟨ht, hf _ rfl, hv.2.2⟩
  | _ => exact ⟨ht, hf _ rfl⟩

/-- A box that a conforming reference refers to is good. -/
theorem ConformsGiven.content {b : BoxId} (hv : h.ConformsGiven good (.boxed b) t) : good b := hv.2.2

/-! ## Other heaps -/

/-- A new box is the last one, and the older ones stay. -/
theorem boxCell_allocBox_eq (content : Value) (b : BoxId) :
    (h.allocBox t content).2.boxCell b = if b.index = h.boxes.size then ⟨t, content⟩ else h.boxCell b := by
  simp only [boxCell, allocBox, Array.getD_eq_getD_getElem?, Array.getElem?_push]
  split <;> rfl

/-- The cell of a box that is older than a new box stays. -/
theorem boxCell_allocBox {b : BoxId} {content : Value} (hb : b.index < h.boxes.size) :
    (h.allocBox t content).2.boxCell b = h.boxCell b := by
  rw [boxCell_allocBox_eq, if_neg (Nat.ne_of_lt hb)]

/-- The cell of a new box. -/
theorem boxCell_allocBox_new (content : Value) :
    (h.allocBox t content).2.boxCell (h.allocBox t content).1 = ⟨t, content⟩ := by
  rw [boxCell_allocBox_eq]
  exact if_pos rfl

/-- A box of a value type is one of the heap: what was never made reads as an object. -/
theorem index_lt_of_isValue {b : BoxId} (hb : (h.boxCell b).type.isValue) :
    b.index < h.boxes.size := by
  rcases Nat.lt_or_ge b.index h.boxes.size with hlt | hge
  · exact hlt
  · have hnone : h.boxes[b.index]? = none := Array.getElem?_eq_none hge
    simp [boxCell, Array.getD_eq_getD_getElem?, hnone, Ty.isValue, Ty.kind, TyKind.isValue] at hb

/-- A heap **keeps the types** of another: what accepts the type of a reference in that heap accepts it in
this one, and the good boxes are as they were. -/
structure KeepsTypes (h h' : Heap) (good : BoxId → Prop) : Prop where
  /-- Arrays have the elements that they had. -/
  arrays : ∀ a, (h'.arrayCell a).element = (h.arrayCell a).element
  /-- The types of objects are accepted by what accepted them. -/
  objects : ∀ (o : ObjectId) (t : Ty), t.accepts (h.objectCell o).type → t.accepts (h'.objectCell o).type
  /-- Good boxes are as they were. -/
  boxes : ∀ b, good b → h'.boxCell b = h.boxCell b

variable {h' : Heap}

mutual

/-- A conforming value still conforms in a heap that keeps the types. -/
theorem ConformsGiven.keep (hk : h.KeepsTypes h' good) (hgood : ∀ b, good b → good' b) :
    (v : Value) → (t : Ty) → h.ConformsGiven good v t → h'.ConformsGiven good' v t
  | .scalar _, _, hv => hv
  | .null, _, hv => hv
  | .text _, _, hv => hv
  | .handle _, _, hv => hv
  | .array a, t, hv => by
    refine ⟨hv.1, ?_⟩
    rw [hk.arrays]
    exact hv.2
  | .object o, t, hv => ⟨hv.1, hk.objects o t hv.2⟩
  | .struct _ fields, _, hv => ⟨hv.1, hv.2.1, AllConformGiven.keep hk hgood fields _ hv.2.2⟩
  | .boxed b, _, hv => by
    refine ⟨hv.1, ?_, hgood b hv.2.2⟩
    rw [hk.boxes b hv.2.2]
    exact hv.2.1
  | .address _, _, hv => hv.elim

/-- So do conforming values. -/
theorem AllConformGiven.keep (hk : h.KeepsTypes h' good) (hgood : ∀ b, good b → good' b) :
    (vs : List Value) → (ts : List Ty) → h.AllConformGiven good vs ts → h'.AllConformGiven good' vs ts
  | [], [], _ => trivial
  | v :: vs, t :: ts, hvs =>
    ⟨ConformsGiven.keep hk hgood v t hvs.1, AllConformGiven.keep hk hgood vs ts hvs.2⟩
  | [], _ :: _, hvs => hvs.elim
  | _ :: _, [], hvs => hvs.elim

end

/-- What conforms still conforms in a heap that keeps the types. -/
theorem Conforms.keep (hv : h.Conforms v t) (hk : ∀ good, h.GoodBoxes good → h.KeepsTypes h' good) :
    h'.Conforms v t := by
  obtain ⟨good, hg, hv⟩ := hv
  refine ⟨good, fun b hb => ?_, hv.keep (hk good hg) fun _ => id⟩
  obtain ⟨hvalue, hcontent⟩ := hg b hb
  rw [getBox, (hk good hg).boxes b hb]
  exact ⟨hvalue, hcontent.keep (hk good hg) fun _ => id⟩

/-- The types are kept when a box is made. -/
theorem keepsTypes_allocBox (s : Ty) (content : Value) (hg : h.GoodBoxes good) :
    h.KeepsTypes (h.allocBox s content).2 good where
  arrays _ := rfl
  objects _ _ ht := ht
  boxes b hb := boxCell_allocBox (index_lt_of_isValue (hg b hb).1)

/-- A new box around a value that conforms to a value type conforms to every reference type that accepts
it. -/
theorem Conforms.boxed {content : Value} (hv : h.Conforms content s) (hs : s.isValue)
    (ht : t.isReference) (hacc : t.accepts s) :
    (h.allocBox s content).2.Conforms (.boxed (h.allocBox s content).1) t := by
  obtain ⟨good, hg, hv⟩ := hv
  let new := (h.allocBox s content).1
  let good' : BoxId → Prop := fun b => good b ∨ b = new
  have hsub : ∀ b, good b → good' b := fun b hb => .inl hb
  have hcell : (h.allocBox s content).2.boxCell new = ⟨s, content⟩ := boxCell_allocBox_new content
  refine ⟨good', ?_, ht, ?_, .inr rfl⟩
  · rintro b (hb | rfl)
    · -- an older box is as it was
      obtain ⟨hvalue, hcontent⟩ := hg b hb
      have hold : (h.allocBox s content).2.boxCell b = h.boxCell b :=
        boxCell_allocBox (index_lt_of_isValue hvalue)
      rw [getBox, hold]
      exact ⟨hvalue, hcontent.keep (keepsTypes_allocBox s content hg) hsub⟩
    · rw [getBox, hcell]
      exact ⟨hs, hv.keep (keepsTypes_allocBox s content hg) hsub⟩
  · rw [hcell]
    exact hacc

/-- The content of a conforming box conforms to the type that it was boxed as. -/
theorem Conforms.content {b : BoxId} (hv : h.Conforms (.boxed b) t) :
    (h.boxCell b).type.isValue ∧ h.Conforms (h.getBox b) (h.boxCell b).type := by
  obtain ⟨good, hg, hv⟩ := hv
  obtain ⟨hvalue, hcontent⟩ := hg b hv.content
  exact ⟨hvalue, good, hg, hcontent⟩

/-- What conforms to a value type is a scalar of its kind or a struct of it. -/
theorem Conforms.of_value (hv : h.Conforms v t) (ht : t.isValue) :
    (∃ x, v = .scalar x ∧ t.storedAs? = some x.kind) ∨
      ∃ u fields, v = .struct u fields ∧ t.isStruct ∧ u == t := by
  obtain ⟨good, -, hv⟩ := hv
  rcases hv.of_value ht with hx | ⟨u, fields, hvu, hstruct, hu, -⟩
  · exact .inl hx
  · exact .inr ⟨u, fields, hvu, hstruct, hu⟩

/-- What conforms to a reference type is null or has a runtime type that the type accepts. -/
theorem Conforms.of_reference (hv : h.Conforms v t) (ht : t.isReference) :
    v = .null ∨ ∃ f, h.typeOf? v = some f ∧ t.accepts f := by
  obtain ⟨good, -, hv⟩ := hv
  exact hv.of_reference ht

/-- What conforms to a value type has a runtime type. -/
theorem Conforms.typeOf_of_value (hv : h.Conforms v s) (hs : s.isValue) :
    ∃ f, h.typeOf? v = some f := by
  rcases hv.of_value hs with ⟨x, rfl, -⟩ | ⟨u, fields, rfl, -⟩
  · exact ⟨_, rfl⟩
  · exact ⟨_, rfl⟩

/-- What conforms to a value type conforms to no reference type. -/
theorem Conforms.not_reference (hv : h.Conforms v s) (hs : s.isValue) (ht : t.isReference) :
    ¬ h.Conforms v t := by
  rintro ⟨good, -, hvt⟩
  rcases hv.of_value hs with ⟨x, rfl, -⟩ | ⟨u, fields, rfl, -⟩
  · exact not_isValue_of_isReference ht (isValue_of_storedAs hvt)
  · exact not_isValue_of_isReference ht (isValue_of_isStruct hvt.1)

/-- A reference whose runtime type is a value type refers to a box or to an object. -/
theorem Conforms.box_or_object {f : Ty} (hv : h.Conforms v s) (hs : s.isReference)
    (hf : h.typeOf? v = some f) (hvalue : f.isValue) :
    (∃ b, v = .boxed b) ∨ ∃ o, v = .object o := by
  obtain ⟨good, -, hv⟩ := hv
  have hnot := not_isValue_of_isReference hs
  cases v with
  | boxed b => exact .inl ⟨b, rfl⟩
  | object o => exact .inr ⟨o, rfl⟩
  | scalar x => exact absurd (isValue_of_storedAs hv) hnot
  | struct u fields => exact absurd (isValue_of_isStruct hv.1) hnot
  | null => cases hf
  | address p => cases hf
  | _ =>
    cases hf
    cases hvalue

/-- What conforms to one reference type conforms to another exactly when that accepts its runtime
type. -/
theorem Conforms.reference_iff (hv : h.Conforms v s) (hs : s.isReference) (ht : t.isReference) :
    h.Conforms v t ↔ ∀ f, h.typeOf? v = some f → t.accepts f := by
  constructor
  · intro hvt f hf
    rcases hvt.of_reference ht with rfl | ⟨f', hf', hacc⟩
    · cases hf
    · rw [hf] at hf'
      cases hf'
      exact hacc
  · intro hf
    obtain ⟨good, hg, hv⟩ := hv
    exact ⟨good, hg, hv.to_reference hs ht hf⟩

/-- A scalar conforms to the types that are stored as its kind. -/
theorem conforms_scalar_iff {x : Scalar} : h.Conforms (.scalar x) t ↔ t.storedAs? = some x.kind := by
  constructor
  · intro ⟨_, _, hx⟩
    exact hx
  · intro hx
    exact ⟨fun _ => False, fun _ hb => hb.elim, hx⟩

/-- Types that are the same are of one kind. -/
theorem isStruct_of_beq (h : s == t) (hs : s.isStruct) : t.isStruct := by
  have hkind := (Ty.beq_iff.1 h).1
  rw [Ty.isStruct, ← hkind]
  exact hs

theorem storedAs_of_isStruct (hs : s.isStruct) : s.storedAs? = none := by
  cases s <;> first | rfl | cases hs

/-- A value made to fit its type still conforms to it. -/
theorem Conforms.fit (hv : h.Conforms v s) (hs : s.isValue) :
    h.Conforms (Value.fit s.storedAs? v) s := by
  rcases hv.of_value hs with ⟨x, rfl, hx⟩ | ⟨u, fields, rfl, hstruct, -⟩
  · rw [hx, Value.fit_scalar, conforms_scalar_iff, Scalar.kind_convert, hx]
  · rw [storedAs_of_isStruct hstruct, Value.fit_none]
    exact hv

/-- Only what is of a value type can be unboxed as one. -/
theorem isValue_of_unboxesAs {f : Ty} (h : f.unboxesAs t) (ht : t.isValue) : f.isValue := by
  rw [Ty.unboxesAs, Bool.or_eq_true, Bool.and_eq_true, Bool.and_eq_true] at h
  rcases h with hsame | ⟨⟨-, hstored⟩, -⟩
  · rw [Ty.isValue, (Ty.beq_iff.1 hsame).1]
    exact ht
  · obtain ⟨k, hk⟩ := Option.isSome_iff_exists.1 hstored
    exact isValue_of_storedAs hk

/-- What conforms to a value type conforms to another that it can be unboxed as exactly when both are
stored as the same kind. Only two descriptions of one enumeration fail to be. -/
theorem Conforms.unboxes_iff (hv : h.Conforms v s) (hs : s.isValue) (hst : s.unboxesAs t) :
    h.Conforms v t ↔ s.storedAs? = t.storedAs? := by
  rcases hv.of_value hs with ⟨x, rfl, hx⟩ | ⟨u, fields, rfl, hstruct, hu⟩
  · rw [conforms_scalar_iff, hx, eq_comm]
  · -- a struct is unboxed as the same type only
    have hnone := storedAs_of_isStruct hstruct
    have hsame : s == t := by
      rw [Ty.unboxesAs, hnone] at hst
      simpa using hst
    have htstruct := isStruct_of_beq hsame hstruct
    refine ⟨fun _ => ?_, fun _ => ?_⟩
    · rw [hnone, storedAs_of_isStruct htstruct]
    · obtain ⟨good, hg, hv⟩ := hv
      exact ⟨good, hg, htstruct, Ty.beq_trans hu hsame, hv.2.2⟩

/-- What is left as it is conforms to the target unless it is stored otherwise or its runtime type is not
accepted. -/
theorem Conforms.kept_iff (hv : h.Conforms v s) (hst : s == t ∨ (s.isReference ∧ t.isReference)) :
    h.Conforms v t ↔
      ¬ if s.isValue then s.storedAs? ≠ t.storedAs? else ∃ f, h.typeOf? v = some f ∧ ¬ t.accepts f := by
  by_cases hs : s.isValue
  · rw [if_pos hs, not_not]
    have hsame : s == t := by
      rcases hst with hsame | ⟨hreference, -⟩
      · exact hsame
      · exact absurd hs (not_isValue_of_isReference hreference)
    have hunbox : s.unboxesAs t := by
      rw [Ty.unboxesAs, hsame, Bool.true_or]
    exact hv.unboxes_iff hs hunbox
  · rw [if_neg hs]
    have hreference : s.isReference := by simp [Ty.isReference, hs]
    have ht : t.isReference := by
      rcases hst with hsame | ⟨-, ht⟩
      · rw [Ty.isReference, Ty.isValue, ← (Ty.beq_iff.1 hsame).1]
        exact hreference
      · exact ht
    rw [hv.reference_iff hreference ht]
    simp only [not_exists, not_and, not_not]

end Heap

end Stackwright
