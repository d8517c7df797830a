import Stackwright.Proofs.Tracing.Numbering
import Stackwright.Proofs.Value.EqualityLaws
import Stackwright.Proofs.Value.Openings

/-! # Equality and text under another numbering

Neither equality of values nor the text of a value for users tells how boxes are numbered. Both are computed with
a budget that grows with the number of boxes; on values that are not nested in a cycle a budget that lasts in the
one heap lasts in the other, and the text is found in the same number of steps.

* **`Heap.Renumbered.same_iff`** — equality by rules is the same.
* **`Heap.Renumbered.identical`**, **`Heap.Renumbered.equal`** — so are identity and structural equality.
* **`Heap.Renumbered.display`** — the text is the same if it is not that of an address. -/

namespace Stackwright

/-! ## The numbers the other way round -/

/-- The numbers of the second run first. -/
def Numbering.flip (ν : Numbering) : Numbering := ⟨fun i k => ν.slots k i, fun i k => ν.boxes k i⟩

theorem Value.Renumbered.flip {ν : Numbering} {v v' : Value} (h : v.Renumbered ν v') : v'.Renumbered ν.flip v := by
  induction h with
  | constant h => exact .constant h
  | array a => exact .array a
  | object o => exact .object o
  | struct t hlength _ ih => exact .struct t hlength.symm fun i x y hx hy => ih i y x hy hx
  | boxed h => exact .boxed h
  | address h =>
    refine .address ?_
    cases h with
    | argument i => exact .argument i
    | «variable» h => exact .variable h
    | element a i => exact .element a i
    | boxed h => exact .boxed h

/-- Boxes that belong together are the same, and no two belong to one. -/
structure Heap.BoxesRenumbered (ν : Numbering) (h h' : Heap) : Prop where
  /-- Boxes that belong together are the same. -/
  boxes : ∀ b b' : BoxId, ν.boxes b.index b'.index → (h.boxCell b).Renumbered ν (h'.boxCell b')
  /-- No two belong to one. -/
  apart : ∀ b b' c c' : BoxId, ν.boxes b.index b'.index → ν.boxes c.index c'.index → (b = c ↔ b' = c')

theorem Heap.BoxesRenumbered.flip {ν : Numbering} {h h' : Heap} (hh : h.BoxesRenumbered ν h') :
    h'.BoxesRenumbered ν.flip h where
  boxes b b' hb := ⟨(hh.boxes b' b hb).type.symm, (hh.boxes b' b hb).content.flip⟩
  apart b b' c c' hb hc := (hh.apart b' b c' c hb hc).symm

/-! ## Equality by rules -/

section equality

variable {ν : Numbering} {h h' : Heap} {a b a' b' : Value} {k n : Nat}

/-- Away from boxes and structs equality does not tell numbers. -/
theorem Value.Renumbered.plainEqual (ha : a.Renumbered ν a') (hb : b.Renumbered ν b') :
    Value.plainEqual a' b' = Value.plainEqual a b := by
  cases ha with
  | @constant a hconstant =>
    cases hb with
    | constant => rfl
    | array | object => rfl
    | _ => cases a <;> rfl
  | array | object =>
    cases hb with
    | constant | array | object => rfl
    | _ => rfl
  | _ =>
    cases hb <;> rfl

theorem Value.Renumbered.ne_boxed (ha : a.Renumbered ν a') (hne : ∀ i, a ≠ .boxed i) : ∀ i, a' ≠ .boxed i := by
  rintro i rfl
  cases ha with
  | constant h => cases h
  | boxed h => exact hne _ rfl

namespace Heap

/-- What is equal by the rules is equal under another numbering. -/
theorem Same.renumbered (hab : h.Same a b) (hh : h.BoxesRenumbered ν h') (ha : a.Renumbered ν a')
    (hb : b.Renumbered ν b') : h'.Same a' b' := by
  induction hab generalizing a' b' with
  | plain hvw => exact .plain (ha.plainEqual hb ▸ hvw)
  | struct htype hlength _ ih =>
    cases ha with
    | constant hconstant => cases hconstant
    | struct t hlength₁ hfields =>
      cases hb with
      | constant hconstant => cases hconstant
      | struct u hlength₂ hfields' =>
        refine .struct htype (hlength₁.trans (hlength.trans hlength₂.symm)) fun i x' y' hx' hy' => ?_
        have hi := (List.getElem?_eq_some_iff.1 hx').1
        have hx := List.getElem?_eq_getElem (hlength₁ ▸ hi)
        have hy := List.getElem?_eq_getElem (hlength₂ ▸ (List.getElem?_eq_some_iff.1 hy').1)
        exact ih i _ _ hx hy (hfields i _ _ hx hx') (hfields' i _ _ hy hy')
  | box i =>
    cases ha with
    | constant hconstant => cases hconstant
    | boxed hi =>
      cases hb with
      | constant hconstant => cases hconstant
      | boxed hi' =>
        rw [(hh.apart _ _ _ _ hi hi').1 rfl]
        exact .box _
  | boxes htype _ ih =>
    cases ha with
    | constant hconstant => cases hconstant
    | boxed hi =>
      cases hb with
      | constant hconstant => cases hconstant
      | boxed hj =>
        have hi := hh.boxes _ _ hi
        have hj := hh.boxes _ _ hj
        refine .boxes ?_ (ih hi.content hj.content)
        rw [hi.type, hj.type]
        exact htype
  | left hv _ ih =>
    cases ha with
    | constant hconstant => cases hconstant
    | boxed hi => exact .left (hb.ne_boxed hv) (ih (hh.boxes _ _ hi).content hb)
  | right hv _ ih =>
    cases hb with
    | constant hconstant => cases hconstant
    | boxed hi => exact .right (ha.ne_boxed hv) (ih ha (hh.boxes _ _ hi).content)

/-- What a value leads to belongs to what it belongs to leads to. -/
theorem BoxesRenumbered.exists_holds (hh : h.BoxesRenumbered ν h') (ha : a.Renumbered ν a') (hb : h'.Holds a' b') :
    ∃ b, h.Holds a b ∧ b.Renumbered ν b' := by
  cases hb with
  | content i' =>
    cases ha with
    | constant hconstant => cases hconstant
    | boxed hi => exact ⟨_, .content _, (hh.boxes _ _ hi).content⟩
  | field hmem =>
    cases ha with
    | constant hconstant => cases hconstant
    | struct t hlength hfields =>
      obtain ⟨i, hi'⟩ := List.getElem?_of_mem hmem
      have hi := List.getElem?_eq_getElem (hlength ▸ (List.getElem?_eq_some_iff.1 hi').1)
      exact ⟨_, .field (List.mem_of_getElem? hi), hfields i _ _ hi hi'⟩

/-- A value is as deep as the one that it belongs to. -/
theorem BoxesRenumbered.depth (hh : h.BoxesRenumbered ν h') (hdepth : a.Depth h.Holds n)
    (ha : a.Renumbered ν a') : a'.Depth h'.Holds n := by
  induction hdepth generalizing a' with
  | @plain n a hcell _ ih =>
    refine .plain ?_ fun b' hb' => ?_
    · cases ha <;> first | exact hcell | cases hcell
    · obtain ⟨b, hb, hbb⟩ := hh.exists_holds ha hb'
      exact ih b hb hbb
  | @cell n a c hcell _ ih =>
    have hcell' : ∃ c', a'.cell? = some c' := by
      cases ha with
      | boxed h => exact ⟨_, rfl⟩
      | _ => exact ⟨c, hcell⟩
    obtain ⟨c', hc'⟩ := hcell'
    refine .cell hc' fun b' hb' => ?_
    obtain ⟨b, hb, hbb⟩ := hh.exists_holds ha hb'
    exact ih b hb hbb

/-- Unless both are boxes or both are structs, values are compared by what they are. -/
theorem identical_of_plain (hboxes : ∀ i j, ¬ (a = .boxed i ∧ b = .boxed j))
    (hstructs : ∀ t xs u ys, ¬ (a = .struct t xs ∧ b = .struct u ys)) :
    h.identical a b = Value.plainEqual a b := by
  cases a <;> cases b <;>
    first | rfl | exact absurd ⟨rfl, rfl⟩ (hboxes _ _) | exact absurd ⟨rfl, rfl⟩ (hstructs _ _ _ _)

namespace Renumbered

variable (hh : h.Renumbered ν h')

include hh

theorem boxesRenumbered : h.BoxesRenumbered ν h' := ⟨hh.boxes, fun _ _ _ _ hb hc => hh.box_eq hb hc⟩

/-- Equality by rules is **the same** under another numbering. -/
theorem same_iff (ha : a.Renumbered ν a') (hb : b.Renumbered ν b') : h'.Same a' b' ↔ h.Same a b :=
  ⟨fun hsame => hsame.renumbered hh.boxesRenumbered.flip ha.flip hb.flip,
    fun hsame => hsame.renumbered hh.boxesRenumbered ha hb⟩

/-- Structural equality is the same, on values that are not nested in a cycle. -/
theorem equal (ha : a.Renumbered ν a') (hb : b.Renumbered ν b') (hcycle : a.Acyclic h.Holds)
    (hcycle' : b.Acyclic h.Holds) : h'.equal a' b' = h.equal a b := by
  rw [Bool.eq_iff_iff, equal_iff_same hcycle hcycle', ← hh.same_iff ha hb]
  constructor
  · exact same_of_equalWith fun v w => same_of_equalBoxes
  · intro hsame
    -- the budget lasts in the first heap, and the second one has more boxes
    have hbudget : (h.boxes.size + 1) + (h.boxes.size + 1) ≤ h'.equalBudget := by
      have := hh.order.bound_le
      rw [equalBudget]
      omega
    exact (equalWith_of_same hsame (hh.boxesRenumbered.depth (depth_of_acyclic hcycle) ha)
      (hh.boxesRenumbered.depth (depth_of_acyclic hcycle') hb) hbudget).1

/-- So is identity, where structs are not nested in a cycle. -/
theorem identical (ha : a.Renumbered ν a') (hb : b.Renumbered ν b')
    (hcycle : ∀ t xs, a = .struct t xs → a.Acyclic h.Holds)
    (hcycle' : ∀ t xs, b = .struct t xs → b.Acyclic h.Holds) : h'.identical a' b' = h.identical a b := by
  by_cases hboxes : ∃ i j, a = .boxed i ∧ b = .boxed j
  · obtain ⟨i, j, rfl, rfl⟩ := hboxes
    obtain ⟨i', rfl, hi⟩ := ha.exists_boxed
    obtain ⟨j', rfl, hj⟩ := hb.exists_boxed
    rw [Heap.identical, Heap.identical, Bool.eq_iff_iff, beq_iff_eq, beq_iff_eq, hh.box_eq hi hj]
  · by_cases hstructs : ∃ t xs u ys, a = .struct t xs ∧ b = .struct u ys
    · obtain ⟨t, xs, u, ys, rfl, rfl⟩ := hstructs
      have hequal := hh.equal ha hb (hcycle t xs rfl) (hcycle' u ys rfl)
      have hbare : ∀ t xs i, Value.struct t xs ≠ .boxed i := by
        rintro t xs i ⟨⟩
      cases ha with
      | constant hconstant => cases hconstant
      | struct t hlength hfields =>
        cases hb with
        | constant hconstant => cases hconstant
        | struct u hlength' hfields' =>
          rwa [← identical_eq_equal _ (hbare _ _) (hbare _ _), ← identical_eq_equal _ (hbare _ _) (hbare _ _)] at hequal
    · rw [identical_of_plain (fun i j heq => hboxes ⟨i, j, heq⟩) fun t xs u ys heq => hstructs ⟨t, xs, u, ys, heq⟩,
        identical_of_plain, ha.plainEqual hb]
      -- the shapes of two values that belong together are the same
      · rintro i' j' ⟨rfl, rfl⟩
        obtain ⟨i, rfl, -⟩ := ha.flip.exists_boxed
        obtain ⟨j, rfl, -⟩ := hb.flip.exists_boxed
        exact hboxes ⟨i, j, rfl, rfl⟩
      · rintro t xs u ys ⟨rfl, rfl⟩
        cases ha with
        | constant hconstant => cases hconstant
        | struct =>
          cases hb with
          | constant hconstant => cases hconstant
          | struct => exact hstructs ⟨_, _, _, _, rfl, rfl⟩

/-! ## Text for users -/

/-- What is found in boxes belongs together. -/
theorem peel (n : Nat) (ha : a.Renumbered ν a') : (h.peel^[n] a).Renumbered ν (h'.peel^[n] a') := by
  induction n generalizing a a' with
  | zero => exact ha
  | succ n ih =>
    rw [Function.iterate_succ_apply, Function.iterate_succ_apply]
    refine ih ?_
    cases ha with
    | @constant a hconstant =>
      cases a with
      | boxed b => cases hconstant
      | _ => exact .constant hconstant
    | array i => exact .array i
    | object i => exact .object i
    | struct t hlength hfields => exact .struct t hlength hfields
    | boxed hb => exact hh.getBox hb
    | address hp => exact .address hp

/-- Each box of the first heap holds boxes that are there. -/
theorem nested : h.Nested := by
  intro b hb c hc
  obtain ⟨k, hk⟩ := hh.order.total b.index hb
  have hcontent := (hh.boxes b ⟨k⟩ hk).content
  have hcell : (h.boxCell b).content = .boxed c := hc
  rw [hcell] at hcontent
  obtain ⟨c', -, hr⟩ := hcontent.exists_boxed
  exact (hh.order.bounds _ _ hr).1

theorem there (ha : a.Renumbered ν a') : h.There a := by
  rintro b rfl
  obtain ⟨b', -, hr⟩ := ha.exists_boxed
  exact (hh.order.bounds _ _ hr).1

/-- The text for users is **the same** under another numbering, unless it is that of an address. -/
theorem display (ha : a.Renumbered ν a') (hplace : ∀ n p, h.peel^[n] a ≠ .address p) :
    h'.display a' = h.display a := by
  rw [Heap.display, Heap.display, displayWith_boxDisplay, displayWith_boxDisplay]
  have hbudget : h.boxes.size ≤ h'.boxBudget := Nat.le_trans hh.order.bound_le (Nat.le_succ _)
  -- the text is that of what is found in as many steps as the second heap allows
  have hsteps : h.displayWith (fun _ => "") (h.peel^[h.boxBudget] a) =
      h.displayWith (fun _ => "") (h.peel^[h'.boxBudget] a) := by
    rcases peel_stable hh.nested (hh.there ha) (Nat.le_succ _) hbudget with hsame | ⟨⟨b, hb⟩, c, hc⟩
    · exact congrArg _ hsame
    · have hb : h.peel^[h.boxBudget] a = .boxed b := hb
      rw [hb, hc]
      rfl
  rw [hsteps]
  have hfound := hh.peel h'.boxBudget ha
  generalize h.peel^[h'.boxBudget] a = w, h'.peel^[h'.boxBudget] a' = w', hplace h'.boxBudget = hw at hfound
  cases hfound with
  | @constant w hconstant =>
    cases w with
    | null | scalar | text | handle => rfl
    | _ => cases hconstant
  | array i => rw [displayWith, displayWith, (hh.arrayCell i).element]
  | object i => rw [displayWith, displayWith, (hh.objectCell i).type]
  | struct t => rfl
  | boxed hb => rfl
  | address hp => exact absurd rfl (hw _)

end Renumbered

end Heap

end equality

end Stackwright
