import Mathlib.Combinatorics.Pigeonhole
import Stackwright.Proofs.Emission.RoundTrip
import Stackwright.Value.Equality
import Stackwright.Value.Text

/-! # Values in boxes

A box may hold a box. Both the text for users and a comparison with a zero look through boxes one by one,
and stop after as many as the heap has. That is enough: a value in boxes that is not found within so many
steps is never found, because the boxes form a cycle. So neither changes when boxes come to the heap.

* **`Heap.peel`** — a value without its outermost box.
* **`Heap.peel_enough`** — what is in boxes is found in as many steps as there are boxes.
* **`Heap.display_adds`** — new boxes change no text for users.
* **`Heap.equalWith_zeroOf`** — they change no comparison of a value of a type with the zero of the type. -/

namespace Stackwright

namespace Heap

variable {h h' : Heap} {v : Value} {n : Nat}

/-! ## Looking through boxes -/

/-- A value without its **outermost box**. -/
def peel (h : Heap) : Value → Value
  | .boxed b => h.getBox b
  | v => v

/-- A value **is there**: if it is a box, it is one that was made. -/
def There (h : Heap) (v : Value) : Prop := ∀ b, v = .boxed b → b.index < h.boxes.size

/-- Boxes are **nested** in each other: what each holds is there. -/
def Nested (h : Heap) : Prop := ∀ b : BoxId, b.index < h.boxes.size → h.There (h.getBox b)

/-- No box holds the address of a box. -/
def Placeless (h : Heap) : Prop := ∀ b : BoxId, b.index < h.boxes.size → ∀ c, h.getBox b ≠ .address (.boxed c)

/-- Only a box is peeled. -/
theorem peel_of_ne (hv : ∀ b, v ≠ .boxed b) : h.peel v = v := by
  cases v <;> first | rfl | exact absurd rfl (hv _)

/-- A value outside of boxes stays. -/
theorem iterate_peel_of_ne (hv : ∀ b, v ≠ .boxed b) (n : Nat) : h.peel^[n] v = v :=
  Function.iterate_fixed (peel_of_ne hv) n

theorem There.peel (hh : h.Nested) (hv : h.There v) : h.There (h.peel v) := by
  cases v with
  | boxed b => exact hh b (hv b rfl)
  | _ => exact hv

theorem There.iterate (hh : h.Nested) (hv : h.There v) (n : Nat) : h.There (h.peel^[n] v) := by
  induction n with
  | zero => exact hv
  | succ n ih =>
    rw [Function.iterate_succ_apply']
    exact ih.peel hh

/-- What holds of a value and of all that is in boxes holds of what is found in them. -/
theorem iterate_peel_keeps {Q : Value → Prop} (hh : h.Nested) (hboxes : ∀ b : BoxId, b.index < h.boxes.size → Q (h.getBox b))
    (hv : h.There v) (hq : Q v) (n : Nat) : Q (h.peel^[n] v) := by
  induction n generalizing v with
  | zero => exact hq
  | succ n ih =>
    rw [Function.iterate_succ_apply]
    refine ih (hv.peel hh) ?_
    cases v with
    | boxed b => exact hboxes b (hv b rfl)
    | _ => exact hq

/-- **As many steps as there are boxes are enough**: what is ever found in boxes is found by then. For in a
shortest way through the boxes no box comes twice. -/
theorem peel_enough (hh : h.Nested) (hv : h.There v) {m : Nat} (hm : ∀ b, h.peel^[m] v ≠ .boxed b) :
    ∀ b, h.peel^[h.boxes.size] v ≠ .boxed b := by
  classical
  let found : ∃ m, ∀ b, h.peel^[m] v ≠ .boxed b := ⟨m, hm⟩
  have hleast : Nat.find found ≤ h.boxes.size := by
    by_contra hlarge
    have hbox : ∀ i < Nat.find found, ∃ b : BoxId, h.peel^[i] v = .boxed b := by
      intro i hi
      have := Nat.find_min found hi
      push Not at this
      exact this
    have : Nonempty BoxId := ⟨⟨0⟩⟩
    choose! box hbox using hbox
    have hmaps : ∀ i ∈ Finset.range (h.boxes.size + 1), (box i).index ∈ Finset.range h.boxes.size := by
      intro i hi
      have hi : i < Nat.find found := by
        have := Finset.mem_range.1 hi
        omega
      exact Finset.mem_range.2 (hv.iterate hh i _ (hbox i hi))
    -- one box comes at two places, and what is between them could be left out
    have hskip : ∀ i j, i < j → j ≤ h.boxes.size → (box i).index = (box j).index → False := by
      intro i j hij hj hsame
      have hsame : h.peel^[i] v = h.peel^[j] v := by
        rw [hbox i (by omega), hbox j (by omega)]
        exact congrArg Value.boxed (congrArg BoxId.mk hsame)
      have hshort : h.peel^[Nat.find found - j + i] v = h.peel^[Nat.find found] v := by
        have hlong : Nat.find found = Nat.find found - j + j := by omega
        conv_rhs => rw [hlong]
        rw [Function.iterate_add_apply, hsame, ← Function.iterate_add_apply]
      refine Nat.find_min found (m := Nat.find found - j + i) (by omega) ?_
      rw [hshort]
      exact Nat.find_spec found
    obtain ⟨i, hi, j, hj, hne, hsame⟩ :=
      Finset.exists_ne_map_eq_of_card_lt_of_maps_to (by simp) hmaps
    have hi := Finset.mem_range.1 hi
    have hj := Finset.mem_range.1 hj
    rcases Nat.lt_or_gt_of_ne hne with hlt | hlt
    · exact hskip i j hlt (by omega) hsame
    · exact hskip j i hlt (by omega) hsame.symm
  have hrest : h.boxes.size = h.boxes.size - Nat.find found + Nat.find found := by omega
  rw [hrest, Function.iterate_add_apply, iterate_peel_of_ne (Nat.find_spec found)]
  exact Nat.find_spec found

/-- Two looks through boxes that both go far enough come to the same value, or neither comes to one. -/
theorem peel_stable (hh : h.Nested) (hv : h.There v) {n n' : Nat} (hn : h.boxes.size ≤ n)
    (hn' : h.boxes.size ≤ n') :
    h.peel^[n] v = h.peel^[n'] v ∨ (∃ b, h.peel^[n] v = .boxed b) ∧ ∃ b, h.peel^[n'] v = .boxed b := by
  by_cases hfound : ∀ b, h.peel^[h.boxes.size] v ≠ .boxed b
  · have hstays : ∀ n, h.boxes.size ≤ n → h.peel^[n] v = h.peel^[h.boxes.size] v := by
      intro n hn
      obtain ⟨k, rfl⟩ := Nat.exists_eq_add_of_le' hn
      rw [Function.iterate_add_apply, iterate_peel_of_ne hfound]
    exact .inl ((hstays n hn).trans (hstays n' hn').symm)
  · have hnever : ∀ n, ∃ b, h.peel^[n] v = .boxed b := by
      intro n
      by_contra hnone
      exact hfound (peel_enough hh hv fun b hb => hnone ⟨b, hb⟩)
    exact .inr ⟨hnever n, hnever n'⟩

/-- Boxes that come to the heap are in no box that was there. -/
theorem iterate_peel_adds (hh : h.Nested) (hv : h.There v) (hadds : h.Adds h') (n : Nat) :
    h'.peel^[n] v = h.peel^[n] v := by
  induction n with
  | zero => rfl
  | succ n ih =>
    rw [Function.iterate_succ_apply', Function.iterate_succ_apply', ih]
    have hthere := hv.iterate hh n
    cases hbox : h.peel^[n] v with
    | boxed b =>
      have hcell := hadds.boxCell (hthere b hbox)
      show h'.getBox b = h.getBox b
      rw [getBox, getBox, hcell]
    | _ => rfl

/-! ## Text for users -/

/-- The text is that of what is found in the boxes; there is none if nothing is found. -/
theorem displayWith_boxDisplay (h : Heap) (n : Nat) (v : Value) :
    h.displayWith (h.boxDisplay n) v = h.displayWith (fun _ => "") (h.peel^[n] v) := by
  induction n generalizing v with
  | zero => rfl
  | succ n ih =>
    rw [Function.iterate_succ_apply]
    cases v with
    | boxed b => exact ih (h.getBox b)
    | _ => rw [← ih]; rfl

/-- **New boxes change no text for users.** -/
theorem display_adds (hh : h.Nested) (hplaceless : h.Placeless) (hv : h.There v) (hne : ∀ c, v ≠ .address (.boxed c))
    (hadds : h.Adds h') : h'.display v = h.display v := by
  rw [display, display, displayWith_boxDisplay, displayWith_boxDisplay, iterate_peel_adds hh hv hadds]
  have hplain := iterate_peel_keeps (Q := fun w => ∀ c, w ≠ .address (.boxed c)) hh hplaceless hv hne
  have hcounted : ∀ a, h'.arrayDebug a = h.arrayDebug a := fun a => by
    rw [arrayDebug, arrayDebug, itemCount, itemCount, hadds.arrayCell]
  have houtside : ∀ w, (∀ c, w ≠ Value.address (.boxed c)) →
      h'.displayWith (fun _ => "") w = h.displayWith (fun _ => "") w := by
    intro w hw
    cases w with
    | address l =>
      cases l with
      | boxed c => exact absurd rfl (hw c)
      | element a i => rw [displayWith, displayWith, placeDebug, placeDebug, writePlace, writePlace, hcounted]
      | argument i => rw [displayWith, displayWith, placeDebug, placeDebug, writePlace, writePlace]
      | «variable» i => rw [displayWith, displayWith, placeDebug, placeDebug, writePlace, writePlace]
    | array a => rw [displayWith, displayWith, hadds.arrayCell]
    | object o => rw [displayWith, displayWith, hadds.objectCell]
    | _ => rfl
  rw [houtside _ (hplain _)]
  have hbudget : h.boxes.size ≤ h.boxBudget := Nat.le_succ _
  have hbudget' : h.boxes.size ≤ h'.boxBudget := Nat.le_trans hadds.size (Nat.le_succ _)
  rcases peel_stable hh hv hbudget' hbudget with hsame | ⟨⟨b, hb⟩, c, hc⟩
  · rw [hsame]
  · rw [hb, hc]
    rfl

/-! ## Comparisons with a zero -/

/-- Only null, or boxes around null, are equal to null. -/
theorem equalWith_null (h : Heap) (n : Nat) (v : Value) :
    Value.equalWith (h.equalBoxes n) v .null = (h.peel^[n] v).isNull := by
  induction n generalizing v with
  | zero => cases v <;> rfl
  | succ n ih =>
    rw [Function.iterate_succ_apply]
    cases v with
    | boxed b => exact ih (h.getBox b)
    | _ => rw [← ih]; rfl

/-- The order does not matter. -/
theorem equalWith_null_left (h : Heap) (n : Nat) (v : Value) :
    Value.equalWith (h.equalBoxes n) .null v = Value.equalWith (h.equalBoxes n) v .null := by
  cases v with
  | boxed b => cases n <;> rfl
  | _ => rfl

/-- New boxes change no comparison with null. -/
theorem equalWith_null_adds (hh : h.Nested) (hadds : h.Adds h') {n n' : Nat} (hn : h.boxes.size ≤ n)
    (hn' : h.boxes.size ≤ n') (hv : h.There v) :
    Value.equalWith (h'.equalBoxes n') .null v = Value.equalWith (h.equalBoxes n) v .null := by
  rw [equalWith_null_left, equalWith_null, equalWith_null, iterate_peel_adds hh hv hadds]
  rcases peel_stable hh hv hn' hn with hsame | ⟨⟨b, hb⟩, c, hc⟩
  · rw [hsame]
  · rw [hb, hc]
    rfl

end Heap

/-- Numbers are equal in either order. -/
theorem Number.compare?_eq_comm (x y : Number) : (x.compare? y == some .eq) = (y.compare? x == some .eq) := by
  have hint : ∀ a b : Int, (some (compare a b) == some .eq) = (some (compare b a) == some .eq) := by
    intro a b
    rw [Bool.eq_iff_iff, beq_iff_eq, beq_iff_eq, Option.some_inj, Option.some_inj, Int.compare_eq_eq,
      Int.compare_eq_eq, eq_comm]
  have hbinary : ∀ a b : Binary, (a.compare? b == some .eq) = (b.compare? a == some .eq) := by
    intro a b
    cases a with
    | nan => cases b <;> rfl
    | infinite s =>
      cases b with
      | infinite s' => cases s <;> cases s' <;> rfl
      | _ => cases s <;> rfl
    | finite s m e =>
      cases b with
      | finite s' m' e' =>
        simp only [Binary.compare?]
        rw [min_comm, hint]
      | infinite s' => cases s' <;> rfl
      | nan => rfl
  cases x with
  | int a =>
    cases y with
    | int b => exact hint a b
    | float b => exact hbinary _ _
  | float a => cases y <;> exact hbinary _ _

namespace Heap

variable {h h' : Heap}

mutual

/-- A value **fills** a type down to the fields of structs: a scalar of the kind, a struct of the type with
fields that fill theirs, or, for a reference type, null or a value of a runtime type that is accepted. -/
def Fills (h : Heap) : Ty → Value → Prop
  | .primitive p, v | .enumeration _ p _ _, v => ∃ x : Scalar, v = .scalar x ∧ x.kind = p
  | .struct path is fields, v =>
    ∃ u vs, v = .struct u vs ∧ u == .struct path is fields ∧ h.FillAll fields vs
  | t, v => h.IsOf v t ∧ h.There v

/-- Values fill the types of fields, position by position. -/
def FillAll (h : Heap) : List (String × Ty) → List Value → Prop
  | [], vs => vs = []
  | f :: fs, vs => ∃ v rest, vs = v :: rest ∧ h.Fills f.2 v ∧ h.FillAll fs rest

end

mutual

/-- **New boxes change no comparison with a zero**, and its order does not matter. -/
theorem equalWith_zeroOf (hh : h.Nested) (hadds : h.Adds h') {n n' : Nat} (hn : h.boxes.size ≤ n)
    (hn' : h.boxes.size ≤ n') : ∀ (t : Ty) (v : Value), h.Fills t v →
      Value.equalWith (h'.equalBoxes n') (Value.zeroOf t) v = Value.equalWith (h.equalBoxes n) v (Value.zeroOf t)
  | .primitive p, _, ⟨x, rfl, _⟩ | .enumeration _ p _ _, _, ⟨x, rfl, _⟩ => by
    exact Number.compare?_eq_comm _ _
  | .struct path is fields, _, ⟨u, vs, rfl, _, hvs⟩ => by
    rw [Value.zeroOf, Value.equalWith, Value.equalWith, Ty.beq_comm,
      equalAllWith_zerosOf hh hadds hn hn' fields vs hvs]
  | .object, v, hv | .string, v, hv | .array _, v, hv | .interface .., v, hv | .klass .., v, hv => by
    exact equalWith_null_adds hh hadds hn hn' hv.2

theorem equalAllWith_zerosOf (hh : h.Nested) (hadds : h.Adds h') {n n' : Nat} (hn : h.boxes.size ≤ n)
    (hn' : h.boxes.size ≤ n') : ∀ (fs : List (String × Ty)) (vs : List Value), h.FillAll fs vs →
      Value.equalAllWith (h'.equalBoxes n') (Value.zerosOf fs) vs =
        Value.equalAllWith (h.equalBoxes n) vs (Value.zerosOf fs)
  | [], _, rfl => rfl
  | (_, t) :: fs, _, ⟨v, rest, rfl, hv, hrest⟩ => by
    rw [Value.zerosOf, Value.equalAllWith, Value.equalAllWith, equalWith_zeroOf hh hadds hn hn' t v hv,
      equalAllWith_zerosOf hh hadds hn hn' fs rest hrest]

end

end Heap

end Stackwright
