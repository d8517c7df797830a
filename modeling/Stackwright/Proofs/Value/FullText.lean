import Stackwright.Proofs.Value.Openings
import Stackwright.Proofs.Tracing.Showing

/-! # Full text

The **full text** of a value spells null out and shows an array item by item, down to the items that are no
arrays. It depends on what is in the heap, but not on boxes that come to it: those are made while the text is
put together.

* **`Heap.fullText h t v`** — the full text of a value as one of a type.
* **`Heap.Readable h t v`** — a value is of a type, and so are its items at every level.
* **`Heap.Spells h t v x`** — a value reads as a text, whatever boxes are made. -/

namespace Stackwright

/-- Scalars that agree are displayed alike. -/
theorem Scalar.Agrees.display {x y : Scalar} (h : x.Agrees y) : x.display = y.display := by
  cases h with
  | same => rfl
  | @nan k v w hv hw =>
    cases k with
    | single => rw [Scalar.display, Scalar.display, Scalar.widen, Scalar.widen, hv, hw]
    | double => rw [Scalar.display, Scalar.display, Scalar.widen, Scalar.widen, hv, hw]

namespace Heap

variable {h h' : Heap} {t e : Ty} {v w : Value} {x : String}

/-- So are values that agree. -/
theorem display_agrees (hvw : v.Agrees w) : h.display v = h.display w := by
  cases hvw with
  | same => rfl
  | scalar hxy => exact hxy.display

/-- A box is displayed as what is in it. -/
theorem display_boxed {b : BoxId} (hb : ∀ c, h.getBox b ≠ .boxed c) : h.display (.boxed b) = h.display (h.getBox b) := by
  show h.displayWith (h.boxDisplay h.boxes.size) (h.getBox b) = h.displayWith (h.boxDisplay h.boxBudget) (h.getBox b)
  generalize h.getBox b = w at hb
  cases w with
  | boxed c => exact absurd rfl (hb c)
  | _ => rfl

/-- What is of a value type, and was stored, is no box. -/
theorem IsOf.fit_ne_boxed (hv : h.IsOf v t) (ht : t.isValue) (b : BoxId) : Value.fit t.storedAs? v ≠ .boxed b := by
  cases hv with
  | scalar hk =>
    rw [hk, Value.fit_scalar]
    exact Value.noConfusion
  | struct hstruct _ =>
    rw [storedAs_of_isStruct hstruct, Value.fit_none]
    exact Value.noConfusion
  | null hreference => exact absurd ht (not_isValue_of_isReference hreference)
  | accepted hreference _ _ => exact absurd ht (not_isValue_of_isReference hreference)

/-! ## Texts -/

/-- The **full text** of a value, as one of a type. -/
def fullText (h : Heap) : Ty → Value → String
  | .array e, .array a =>
    "\x7b " ++ String.join ((h.arrayCell a).items.toList.map fun w => h.fullText e w ++ ", ") ++ "\x7d"
  | t, v => if t.isReference && v.isNull then "<null>" else h.display v

/-- A value **can be read** as one of a type: what is no array is of the type, and where an array is expected
there is null, or an array that can be counted and whose items can be read. -/
def Readable (h : Heap) : Ty → Value → Prop
  | .array e, v => v = .null ∨ ∃ a, v = .array a ∧ h.itemCount a < 1 <<< 31 ∧
      ∀ w ∈ (h.arrayCell a).items, h.Readable e w
  | t, v => h.IsOf v t ∧ h.There v

theorem readable_of_not_array (ht : ∀ e, t = .array e → False) : h.Readable t v ↔ h.IsOf v t ∧ h.There v := by
  cases t with
  | array e => exact (ht e rfl).elim
  | _ => rfl

theorem fullText_of_not_array (ht : ∀ e, t = .array e → False) :
    h.fullText t v = if t.isReference && v.isNull then "<null>" else h.display v := by
  cases t with
  | array e => exact (ht e rfl).elim
  | _ => rfl

/-- What can be read can be shown. -/
theorem Readable.shows (hv : h.Readable t v) : h.Shows t v := by
  induction t using Emit.toFullText.induct generalizing v with
  | case1 e ih =>
    rcases hv with hv | ⟨a, hv, hcount, hitems⟩
    · exact .inl hv
    · refine .inr ⟨a, hv, hcount, fun i w hw => ih (hitems w ?_)⟩
      obtain ⟨-, -, hitem⟩ := Exec.getItem_ok hw
      exact Array.mem_of_getElem? hitem
  | case2 t hne => exact (shows_of_not_array hne).2 ((readable_of_not_array hne).1 hv).1.ne_address
  | case3 t hne => exact (shows_of_not_array hne).2 ((readable_of_not_array hne).1 hv).1.ne_address

/-- A value **reads** as a text: it does in this heap, or did before boxes came to it. -/
def Spells (h : Heap) (t : Ty) (v : Value) (x : String) : Prop :=
  ∃ h₀ : Heap, h₀.Adds h ∧ h₀.Nested ∧ h₀.Placeless ∧ h₀.Readable t v ∧ x = h₀.fullText t v

/-- Boxes that come to the heap do not matter. -/
theorem Spells.adds (hx : h.Spells t v x) (hh : h.Adds h') : h'.Spells t v x := by
  obtain ⟨h₀, hadds, hrest⟩ := hx
  exact ⟨h₀, hadds.trans hh, hrest⟩

theorem Spells.shows (hx : h.Spells t v x) : h.Shows t v := by
  obtain ⟨h₀, hadds, -, -, hv, -⟩ := hx
  exact hv.shows.adds hadds

/-- The **rows** of an array: its items, in order, with the texts that they read as. -/
structure Rows (h : Heap) (e : Ty) (a : ArrayId) (rows : List (Value × String)) : Prop where
  /-- There are as many items. -/
  count : h.itemCount a = rows.length
  /-- They can be counted. -/
  small : rows.length < 1 <<< 31
  /-- Each item is in its place, and reads as its text. -/
  item : ∀ (i : Nat) (r : Value × String), rows[i]? = some r → h.getItem a i = .ok r.1 ∧ h.Spells e r.1 r.2

theorem Rows.adds {a : ArrayId} {rows : List (Value × String)} (hr : h.Rows e a rows) (hh : h.Adds h') :
    h'.Rows e a rows where
  count := by rw [itemCount, hh.arrayCell]; exact hr.count
  small := hr.small
  item i r hi := by
    rw [getItem, hh.arrayCell]
    exact ⟨(hr.item i r hi).1, (hr.item i r hi).2.adds hh⟩

/-- An array with rows can be shown. -/
theorem Rows.shows {a : ArrayId} {rows : List (Value × String)} (hr : h.Rows e a rows) :
    h.Shows (.array e) (.array a) := by
  refine .inr ⟨a, rfl, hr.count ▸ hr.small, fun i w hw => ?_⟩
  obtain ⟨hnonneg, hlt, -⟩ := Exec.getItem_ok hw
  have hi : i.toNat < rows.length := by
    have := hr.count
    omega
  obtain ⟨hget, hspells⟩ := hr.item i.toNat _ (List.getElem?_eq_getElem hi)
  rw [Int.toNat_of_nonneg hnonneg, hw] at hget
  cases hget
  exact hspells.shows

/-- The texts of rows, each with a comma behind it. -/
def joinRows (rows : List (Value × String)) : String := String.join (rows.map fun r => r.2 ++ ", ")

namespace Spells

/-- What is of a value type reads as a box that it is put into. -/
theorem of_value (hx : h.Spells t v x) (ht : t.isValue) : (∀ l, v ≠ .address l) ∧ ∀ (h' : Heap) (b : BoxId),
    h.Adds h' → h'.getBox b = Value.fit t.storedAs? v → h'.display (.boxed b) = x := by
  have hne : ∀ e, t = .array e → False := by
    rintro e rfl
    cases ht
  obtain ⟨h₀, hadds, hnested, hplaceless, hv, rfl⟩ := hx
  obtain ⟨hv, hthere⟩ := (readable_of_not_array hne).1 hv
  refine ⟨hv.ne_address, fun h' b hadds' hb => ?_⟩
  have hreference : t.isReference = false := by simp [Ty.isReference, ht]
  rw [display_boxed (hb ▸ hv.fit_ne_boxed ht), hb, display_agrees (hv.fit_agrees ht), display_adds hnested hplaceless hthere (fun _ => hv.ne_address _) (hadds.trans hadds'),
    fullText_of_not_array hne, hreference, Bool.false_and]
  rfl

/-- A reference that is no array is spelled out if it is null, and displayed if it is not. -/
theorem of_reference (hx : h.Spells t v x) (hne : ∀ e, t = .array e → False) (ht : ¬ t.isValue) :
    (∀ l, v ≠ .address l) ∧ (v = .null → x = "<null>") ∧ (v ≠ .null → ∀ h', h.Adds h' → h'.display v = x) := by
  obtain ⟨h₀, hadds, hnested, hplaceless, hv, rfl⟩ := hx
  obtain ⟨hv, hthere⟩ := (readable_of_not_array hne).1 hv
  have hreference : t.isReference = true := by simp [Ty.isReference, ht]
  refine ⟨hv.ne_address, fun hnull => ?_, fun hnull h' hadds' => ?_⟩
  · rw [fullText_of_not_array hne, hreference, hnull]
    rfl
  · have hnot : v.isNull = false := by
      cases v <;> first | rfl | exact absurd rfl hnull
    rw [display_adds hnested hplaceless hthere (fun _ => hv.ne_address _) (hadds.trans hadds'), fullText_of_not_array hne, hnot,
      Bool.and_false]
    rfl

end Spells

end Heap

end Stackwright
