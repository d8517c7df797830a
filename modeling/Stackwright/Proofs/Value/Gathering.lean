import Stackwright.Proofs.Value.FullText
import Stackwright.Proofs.Value.Items

/-! # Gathered values

Formatted text takes its values from an array that is made for it, and that is filled item by item: with references
as they are, and with boxes around the values of value types. While it is filled more boxes are made, and dumps may
look at any array. What a value is displayed as stays the same in all of this, since of an array only the element
type is displayed.

* **`Heap.Resembles h h'`** — nothing that is displayed of the one heap is different in the other.
* **`Heap.Displays h v x`** — a value is displayed as a text in whatever resembles the heap.
* **`Heap.Gathers h a n xs`** — the first items of an array are displayed as these texts.
* **`Heap.Refills a h h'`** — only the items of that array are different, but for new boxes. -/

namespace Stackwright

/-- What is no box is none when it is made to fit. -/
theorem Value.fit_ne_boxed {v : Value} (hv : ∀ b, v ≠ .boxed b) (kind : Option ScalarKind) (b : BoxId) :
    Value.fit kind v ≠ .boxed b := by
  cases v with
  | scalar s =>
    cases kind <;> exact Value.noConfusion
  | boxed b' => exact absurd rfl (hv b')
  | _ => cases kind <;> exact Value.noConfusion

namespace Heap

variable {h h' h'' : Heap} {a : ArrayId} {i n : Nat} {v w : Value} {t : Ty} {x : String} {xs : List String}

/-! ## Heaps that resemble each other -/

/-- A heap **resembles** an earlier one: there may be more boxes, and other items in arrays, but the objects and the
element types of arrays are the same. -/
structure Resembles (h h' : Heap) : Prop where
  /-- More boxes may have come. -/
  boxes : ∃ more, h'.boxes = h.boxes ++ more
  /-- The objects are the same. -/
  objects : h'.objects = h.objects
  /-- Element types are the same. -/
  elements : ∀ a, (h'.arrayCell a).element = (h.arrayCell a).element

namespace Resembles

theorem refl (h : Heap) : h.Resembles h := ⟨⟨#[], by simp⟩, rfl, fun _ => rfl⟩

theorem trans (hh : h.Resembles h') (hh' : h'.Resembles h'') : h.Resembles h'' where
  boxes := by
    obtain ⟨more, hmore⟩ := hh.boxes
    obtain ⟨more', hmore'⟩ := hh'.boxes
    exact ⟨more ++ more', by rw [hmore', hmore, Array.append_assoc]⟩
  objects := hh'.objects.trans hh.objects
  elements a := (hh'.elements a).trans (hh.elements a)

/-- A box that was there holds what it held. -/
theorem getBox (hh : h.Resembles h') {b : BoxId} (hb : b.index < h.boxes.size) : h'.getBox b = h.getBox b := by
  obtain ⟨more, hmore⟩ := hh.boxes
  have hcell : h'.boxCell b = h.boxCell b := by
    simp only [boxCell, hmore, Array.getD_eq_getD_getElem?, Array.getElem?_append_left hb]
  rw [Heap.getBox, Heap.getBox, hcell]

end Resembles

/-- New boxes leave a heap that resembles the one before. -/
theorem Adds.resembles (hh : h.Adds h') : h.Resembles h' := by
  obtain ⟨more, rfl⟩ := hh
  exact ⟨⟨more, rfl⟩, rfl, fun _ => rfl⟩

/-- So does another item. -/
theorem resembles_setItem (h : Heap) (a : ArrayId) (i : Int) (v : Value) : h.Resembles (h.setItem a i v) :=
  ⟨⟨#[], by simp [setItem]⟩, rfl, element_setItem⟩

/-- The cell of a new array. -/
theorem arrayCell_allocZeros (h : Heap) (t : Ty) (n : Nat) (b : ArrayId) :
    (h.allocZeros t n).2.arrayCell b =
      if b.index = h.arrays.size then ⟨t, Array.replicate n (Value.zeroOf t)⟩ else h.arrayCell b := by
  simp only [allocZeros, allocArray, arrayCell, Array.getD_eq_getD_getElem?, Array.getElem?_push]
  split <;> rfl

/-- So does a new array of objects: where there is no array, it is as if there were an empty one. -/
theorem resembles_allocZeros (h : Heap) (n : Nat) : h.Resembles (h.allocZeros .object n).2 := by
  refine ⟨⟨#[], by simp [allocZeros, allocArray]⟩, rfl, fun b => ?_⟩
  rw [arrayCell_allocZeros]
  split
  · rename_i hb
    simp [arrayCell, Array.getD_eq_getD_getElem?, hb]
  · rfl

/-! ## What values are displayed as -/

/-- A value **is displayed** as a text, in whatever resembles the heap. -/
def Displays (h : Heap) (v : Value) (x : String) : Prop := ∀ h', h.Resembles h' → h'.display v = x

theorem Displays.later (hv : h.Displays v x) (hr : h.Resembles h') : h'.Displays v x :=
  fun _ hr' => hv _ (hr.trans hr')

/-- A box around what is no box is displayed as what is in it. -/
theorem Displays.boxed {b : BoxId} (hv : h.Displays v x) (hb : b.index < h.boxes.size) (hget : h.getBox b = v)
    (hne : ∀ c, v ≠ .boxed c) : h.Displays (.boxed b) x := by
  intro h' hr
  have hsame : h'.getBox b = v := (hr.getBox hb).trans hget
  rw [display_boxed (hsame ▸ hne), hsame, hv h' hr]

/-- A value of a type is **presented** as a text: what is stored for it is displayed so. -/
structure Presents (h : Heap) (t : Ty) (v : Value) (x : String) : Prop where
  /-- It is no address. -/
  plain : ∀ l, v ≠ .address l
  /-- What is stored for a value of a value type is in no box yet. -/
  bare : t.isValue → ∀ b, Value.fit t.storedAs? v ≠ .boxed b
  /-- What is stored for it is displayed as the text. -/
  displays : h.Displays (Value.fit t.storedAs? v) x

theorem Presents.later (hv : h.Presents t v x) (hr : h.Resembles h') : h'.Presents t v x :=
  ⟨hv.plain, hv.bare, hv.displays.later hr⟩

/-! ## Arrays that are filled -/

/-- An array of some length **gathers** values: its first items are displayed as these texts, and no item is an
address. -/
structure Gathers (h : Heap) (a : ArrayId) (n : Nat) (xs : List String) : Prop where
  /-- It has this many items. -/
  count : h.itemCount a = n
  /-- No item is an address. -/
  plain : ∀ w ∈ (h.arrayCell a).items, ∀ l, w ≠ .address l
  /-- The first ones are displayed as the texts. -/
  item : ∀ (i : Nat) (x : String), xs[i]? = some x → ∃ w, (h.arrayCell a).items[i]? = some w ∧ h.Displays w x

namespace Gathers

/-- A new array gathers nothing yet. -/
theorem allocZeros (h : Heap) (n : Nat) : (h.allocZeros .object n).2.Gathers ⟨h.arrays.size⟩ n [] := by
  have hcell : (h.allocZeros .object n).2.arrayCell ⟨h.arrays.size⟩ = ⟨.object, Array.replicate n .null⟩ := by
    rw [arrayCell_allocZeros, if_pos rfl]
    rfl
  refine ⟨?_, fun w hw l => ?_, fun i x hx => ?_⟩
  · rw [itemCount, hcell, Array.size_replicate]
  · rw [hcell] at hw
    rw [(Array.mem_replicate.1 hw).2]
    exact Value.noConfusion
  · rw [List.getElem?_nil] at hx
    cases hx

/-- New boxes do not matter. -/
theorem adds (hg : h.Gathers a n xs) (hh : h.Adds h') : h'.Gathers a n xs where
  count := by rw [itemCount, hh.arrayCell]; exact hg.count
  plain := by rw [hh.arrayCell]; exact hg.plain
  item i x hx := by
    obtain ⟨w, hw, hdisplays⟩ := hg.item i x hx
    exact ⟨w, by rw [hh.arrayCell]; exact hw, hdisplays.later hh.resembles⟩

/-- There is an item behind those that were gathered. -/
theorem checkItem (hg : h.Gathers a n xs) (hlt : xs.length < n) : h.checkItem a xs.length = .ok () := by
  rw [Heap.checkItem, if_pos]
  have := hg.count
  omega

/-- **One more** value is gathered. -/
theorem setItem (hg : h.Gathers a n xs) (hlt : xs.length < n) (hw : h.Displays w x) (hplain : ∀ l, w ≠ .address l) :
    (h.setItem a xs.length w).Gathers a n (xs ++ [x]) := by
  have hcell := arrayCell_setItem (v := w) (hg.checkItem hlt)
  rw [Int.toNat_natCast] at hcell
  have hsize : (h.arrayCell a).items.size = n := hg.count
  have hresembles := resembles_setItem h a xs.length w
  refine ⟨?_, fun u hu => ?_, fun i y hy => ?_⟩
  · rw [itemCount, hcell, Array.size_setIfInBounds, hsize]
  · rw [hcell] at hu
    rcases Array.mem_or_eq_of_mem_setIfInBounds hu with hu | rfl
    · exact hg.plain u hu
    · exact hplain
  · rw [hcell, Array.getElem?_setIfInBounds]
    by_cases hi : xs.length = i
    · subst hi
      rw [List.getElem?_concat_length] at hy
      cases hy
      exact ⟨w, by rw [if_pos rfl, if_pos (hsize ▸ hlt)], hw.later hresembles⟩
    · have hlt' : i < xs.length := by
        have hlength := (List.getElem?_eq_some_iff.1 hy).1
        rw [List.length_append, List.length_singleton] at hlength
        omega
      rw [List.getElem?_append_left hlt'] at hy
      obtain ⟨u, hu, hdisplays⟩ := hg.item i y hy
      exact ⟨u, by rw [if_neg hi, hu], hdisplays.later hresembles⟩

/-- **When it is full**, its items are displayed as the texts. -/
theorem texts (hg : h.Gathers a n xs) (hn : xs.length = n) : (h.arrayCell a).items.toList.map h.display = xs := by
  have hsize : (h.arrayCell a).items.size = n := hg.count
  refine List.ext_getElem? fun i => ?_
  rw [List.getElem?_map, Array.getElem?_toList]
  cases hx : xs[i]? with
  | none =>
    have hi : n ≤ i := hn ▸ List.getElem?_eq_none_iff.1 hx
    rw [Array.getElem?_eq_none (hsize ▸ hi)]
    rfl
  | some x =>
    obtain ⟨w, hw, hdisplays⟩ := hg.item i x hx
    rw [hw, Option.map_some, hdisplays h (.refl h)]

/-- A full trace can show it. -/
theorem shows (hg : h.Gathers a n xs) (hn : n < 1 <<< 31) : h.Shows (.array .object) (.array a) := by
  refine .inr ⟨a, rfl, hg.count ▸ hn, fun i w hw => ?_⟩
  obtain ⟨-, -, hitem⟩ := Exec.getItem_ok hw
  exact (shows_of_not_array (by rintro e ⟨⟩)).2 (hg.plain w (Array.mem_of_getElem? hitem))

end Gathers

/-! ## Heaps with another array -/

/-- A heap has other items **in one array**, and more boxes may have come. -/
structure Refills (a : ArrayId) (h h' : Heap) : Prop where
  /-- More boxes may have come. -/
  boxes : ∃ more, h'.boxes = h.boxes ++ more
  /-- The objects are the same. -/
  objects : h'.objects = h.objects
  /-- The static fields are the same. -/
  statics : h'.statics = h.statics
  /-- The other arrays are the same. -/
  others : ∀ b ≠ a, h'.arrayCell b = h.arrayCell b
  /-- So is the element type of the array. -/
  element : (h'.arrayCell a).element = (h.arrayCell a).element

/-- A value that is an array **is made**: it is one of the heap. -/
def Made (h : Heap) (v : Value) : Prop := ∀ b : ArrayId, v = .array b → b.index < h.arrays.size

/-- So are the items of the arrays. -/
def Stocked (h : Heap) : Prop := ∀ b, ∀ w ∈ (h.arrayCell b).items, h.Made w

namespace Refills

theorem refl (a : ArrayId) (h : Heap) : Refills a h h := ⟨⟨#[], by simp⟩, rfl, rfl, fun _ _ => rfl, rfl⟩

theorem trans (hh : Refills a h h') (hh' : Refills a h' h'') : Refills a h h'' where
  boxes := by
    obtain ⟨more, hmore⟩ := hh.boxes
    obtain ⟨more', hmore'⟩ := hh'.boxes
    exact ⟨more ++ more', by rw [hmore', hmore, Array.append_assoc]⟩
  objects := hh'.objects.trans hh.objects
  statics := hh'.statics.trans hh.statics
  others b hb := (hh'.others b hb).trans (hh.others b hb)
  element := hh'.element.trans hh.element

/-- New boxes may come. -/
theorem of_adds (hh : h.Adds h') : Refills a h h' := by
  obtain ⟨more, rfl⟩ := hh
  exact ⟨⟨more, rfl⟩, rfl, rfl, fun _ _ => rfl, rfl⟩

/-- Another item may be in the array. -/
theorem of_setItem (h : Heap) (a : ArrayId) (i : Int) (v : Value) : Refills a h (h.setItem a i v) :=
  ⟨⟨#[], by simp [Heap.setItem]⟩, rfl, rfl, fun _ hb => arrayCell_setItem_of_ne hb, element_setItem a⟩

/-- The array itself may have come: where there is none, it is as if there were an empty one. -/
theorem allocZeros (h : Heap) (n : Nat) : Refills ⟨h.arrays.size⟩ h (h.allocZeros .object n).2 where
  boxes := (resembles_allocZeros h n).boxes
  objects := rfl
  statics := rfl
  others b hb := by
    rw [arrayCell_allocZeros, if_neg]
    rintro hsame
    exact hb (congrArg ArrayId.mk hsame)
  element := (resembles_allocZeros h n).elements _

/-- It resembles the heap before. -/
theorem resembles (hh : Refills a h h') : h.Resembles h' where
  boxes := hh.boxes
  objects := hh.objects
  elements b := by
    by_cases hb : b = a
    · rw [hb, hh.element]
    · rw [hh.others b hb]

/-- **What can be shown** of what was there can be shown with a new array. -/
theorem shows (hr : Refills ⟨h.arrays.size⟩ h h') (hh : h.Stocked) (hv : h.Made v) (hs : h.Shows t v) : h'.Shows t v := by
  induction t using Emit.toFullText.induct generalizing v with
  | case1 e ih =>
    rcases hs with hnull | ⟨a, harray, hcount, hitems⟩
    · exact .inl hnull
    · -- the array was there, so it is none but itself
      have hne : a ≠ ⟨h.arrays.size⟩ := fun hsame => Nat.lt_irrefl _ (hsame ▸ hv a harray)
      have hcell := hr.others a hne
      refine .inr ⟨a, harray, ?_, fun i w hw => ?_⟩
      · rwa [itemCount, hcell]
      · rw [getItem, hcell] at hw
        obtain ⟨-, -, hitem⟩ := Exec.getItem_ok hw
        exact ih (hh a w (Array.mem_of_getElem? hitem)) (hitems i w hw)
  | case2 t hne => exact (shows_of_not_array hne).2 ((shows_of_not_array hne).1 hs)
  | case3 t hne => exact (shows_of_not_array hne).2 ((shows_of_not_array hne).1 hs)

end Refills

end Heap

end Stackwright
