import Stackwright.Proofs.Value.Nesting
import Stackwright.Proofs.Value.Openings

/-! # Equality by rules

Structural equality looks into boxes: two boxes are equal if their types and contents are, and a box is equal to
what it holds. So the rules overlap, and a bare value is equal to itself in boxes of any type, while boxes of
different types are not equal. This is all that comes between the rules and transitivity: two values that are
equal to a third one are equal to each other unless somewhere in them, in the same place, are boxes of different
types.

* **`Heap.Comparable h v`** — a value in whose boxes and structs there is no cycle, no float and no address.
* **`Heap.Same h v w`** — structural equality told by rules.
* **`Heap.Clash h v w`** — in the same place of two values are boxes of different types.
* **`Heap.Same.symm`**, **`Heap.Same.refl`**, **`Heap.Same.trans`** — equality by rules is an equivalence where
  nothing clashes. -/

namespace Stackwright

open Relation

/-! ## What is compared -/

/-- A value that is **compared exactly**: it is no float and no address. -/
def Value.Exact : Value → Prop
  | .scalar (.float ..) | .address _ => False
  | _ => True

namespace Heap

variable {h : Heap} {a b c v w : Value} {k m n : Nat}

/-- A value **holds** what a comparison finds in it: a box its content, a struct its fields. -/
inductive Holds (h : Heap) : Value → Value → Prop
  /-- The content of a box. -/
  | content (b : BoxId) : Holds h (.boxed b) (h.getBox b)
  /-- A field of a struct. -/
  | field {t : Ty} {fields : List Value} {v : Value} (hv : v ∈ fields) : Holds h (.struct t fields) v

/-- A value is **comparable**: its boxes and structs are not nested in a cycle, and hold no float and no
address. -/
structure Comparable (h : Heap) (v : Value) : Prop where
  /-- No box in it is inside itself. -/
  acyclic : v.Acyclic h.Holds
  /-- All that is in it is compared exactly. -/
  exact : ∀ w, ReflTransGen h.Holds v w → w.Exact

theorem Comparable.step (hv : h.Comparable v) (hw : h.Holds v w) : h.Comparable w where
  acyclic := hv.acyclic.step hw
  exact u hu := hv.exact u (.head hw hu)

/-- A value is comparable if all that it holds is, and does not lead back to it. -/
theorem comparable_of_forall (hexact : v.Exact)
    (hv : ∀ w, h.Holds v w → h.Comparable w ∧ ¬ ReflTransGen h.Holds w v) : h.Comparable v where
  acyclic := Value.acyclic_of_forall fun w hw => ⟨(hv w hw).1.acyclic, (hv w hw).2⟩
  exact := by
    intro u hu
    rcases hu.cases_head with rfl | ⟨w, hw, hu⟩
    · exact hexact
    · exact (hv w hw).1.exact u hu

/-- An acyclic value is no deeper than there are boxes, and one more. -/
theorem depth_of_acyclic (hv : v.Acyclic h.Holds) : v.Depth h.Holds (h.boxes.size + 1) := by
  have hdepth := hv.depth ((Finset.range h.boxes.size).image CellId.boxed) ?_ ?_
  · refine hdepth.mono (Nat.succ_le_succ (Nat.le_trans Finset.card_image_le ?_))
    rw [Finset.card_range]
  · rintro v w hcell ⟨⟩
    · cases hcell
    · rename_i t fields hw
      have := List.sizeOf_lt_of_mem hw
      simp only [Value.struct.sizeOf_spec]
      omega
  · rintro v w c hcell ⟨⟩
    · rename_i b
      cases hcell
      -- a box that was not made is empty
      rcases Nat.lt_or_ge b.index h.boxes.size with hmade | hnot
      · exact .inl (Finset.mem_image.2 ⟨b.index, Finset.mem_range.2 hmade, rfl⟩)
      · exact .inr (by rw [getBox, boxCell, Array.getD_eq_getD_getElem?, Array.getElem?_eq_none hnot]; rfl)
    · cases hcell

end Heap

/-! ## Equality without boxes -/

namespace Value

variable {a b c : Value}

/-- Values that are neither boxes nor structs are equal in either order. -/
theorem plainEqual_comm (a b : Value) : plainEqual a b = plainEqual b a := by
  have hflip : ∀ {α : Type} [DecidableEq α] (x y : α), (x == y) = (y == x) := by
    intro α _ x y
    rw [Bool.eq_iff_iff, beq_iff_eq, beq_iff_eq, eq_comm]
  cases a <;> cases b <;> first | rfl | skip
  · exact Number.compare?_eq_comm _ _
  · exact hflip _ _
  · exact Ty.beq_comm _ _
  · exact hflip _ _
  · exact hflip _ _

/-- Neither boxes nor structs are equal away from boxes and structs. -/
theorem ne_of_plainEqual (hab : plainEqual a b = true) :
    (∀ i, a ≠ .boxed i) ∧ (∀ i, b ≠ .boxed i) ∧ ∀ t xs, a ≠ .struct t xs := by
  cases a <;> cases b <;> first | cases hab | exact ⟨nofun, nofun, nofun⟩
  exact ⟨nofun, nofun, nofun⟩

/-- What is compared exactly, and neither a box nor a struct, is equal to itself. -/
theorem plainEqual_self (hexact : a.Exact) (hbox : ∀ i, a ≠ .boxed i) (hstruct : ∀ t xs, a ≠ .struct t xs) :
    plainEqual a a = true := by
  cases a with
  | null => rfl
  | scalar s =>
    cases s with
    | float k x => exact hexact.elim
    | bool x => cases x <;> rfl
    | word k x => simp [plainEqual, Scalar.toNumber, Number.compare?]
  | text s => exact beq_self_eq_true s
  | handle t => exact Ty.beq_rfl t
  | array i => exact beq_self_eq_true i
  | object i => exact beq_self_eq_true i
  | struct t xs => exact absurd rfl (hstruct t xs)
  | boxed i => exact absurd rfl (hbox i)
  | address l => exact hexact.elim

/-- A scalar that is no float stands for an integer. -/
theorem exists_toNumber {s : Scalar} (hs : (Value.scalar s).Exact) : ∃ i, s.toNumber = .int i := by
  cases s with
  | float k x => exact hs.elim
  | bool x => exact ⟨_, rfl⟩
  | word k x => exact ⟨_, rfl⟩

/-- Equality is transitive where it is exact. -/
theorem plainEqual_trans (ha : a.Exact) (hb : b.Exact) (hab : plainEqual a b = true) (hbc : plainEqual b c = true) :
    plainEqual a c = true := by
  -- the three are of one shape
  cases a <;> cases b <;> (first | cases hab | skip) <;> cases c <;> (first | cases hbc | skip)
  · rfl
  · rename_i r s t
    obtain ⟨i, hi⟩ := exists_toNumber ha
    obtain ⟨j, hj⟩ := exists_toNumber hb
    -- the first two stand for one integer
    obtain rfl : i = j := by
      rw [plainEqual, hi, hj] at hab
      simpa [Number.compare?] using hab
    rw [plainEqual, hj] at hbc
    rwa [plainEqual, hi]
  · simp only [plainEqual, beq_iff_eq] at hab hbc ⊢
    exact hab.trans hbc
  · exact Ty.beq_trans hab hbc
  · simp only [plainEqual, beq_iff_eq] at hab hbc ⊢
    exact hab.trans hbc
  · simp only [plainEqual, beq_iff_eq] at hab hbc ⊢
    exact hab.trans hbc

end Value

namespace Heap

variable {h : Heap} {a b c v w : Value} {k m n : Nat}

/-! ## Equality by rules -/

/-- **Structural equality**, told by rules. -/
inductive Same (h : Heap) : Value → Value → Prop
  /-- Away from boxes and structs by what the values are. -/
  | plain {v w : Value} (hvw : Value.plainEqual v w = true) : Same h v w
  /-- Structs of one type, field by field. -/
  | struct {t u : Ty} {xs ys : List Value} (htype : (t == u) = true) (hlength : xs.length = ys.length)
      (hfields : ∀ (i : Nat) (x y : Value), xs[i]? = some x → ys[i]? = some y → Same h x y) :
      Same h (.struct t xs) (.struct u ys)
  /-- A box and itself. -/
  | box (b : BoxId) : Same h (.boxed b) (.boxed b)
  /-- Boxes of one type, by what they hold. -/
  | boxes {a b : BoxId} (htype : ((h.boxCell a).type == (h.boxCell b).type) = true)
      (hcontent : Same h (h.getBox a) (h.getBox b)) : Same h (.boxed a) (.boxed b)
  /-- A box and a bare value, by what the box holds. -/
  | left {b : BoxId} {v : Value} (hv : ∀ i, v ≠ .boxed i) (hcontent : Same h (h.getBox b) v) : Same h (.boxed b) v
  /-- A bare value and a box. -/
  | right {b : BoxId} {v : Value} (hv : ∀ i, v ≠ .boxed i) (hcontent : Same h v (h.getBox b)) : Same h v (.boxed b)

/-- In the same place of two values are **boxes of different types**. -/
inductive Clash (h : Heap) : Value → Value → Prop
  /-- These are the values. -/
  | types {a b : BoxId} (htype : ((h.boxCell a).type == (h.boxCell b).type) = false) : Clash h (.boxed a) (.boxed b)
  /-- They are in what the boxes hold. -/
  | boxes {a b : BoxId} (hcontent : Clash h (h.getBox a) (h.getBox b)) : Clash h (.boxed a) (.boxed b)
  /-- They are in what a box holds and in a bare value. -/
  | left {b : BoxId} {v : Value} (hv : ∀ i, v ≠ .boxed i) (hcontent : Clash h (h.getBox b) v) : Clash h (.boxed b) v
  /-- They are in a bare value and in what a box holds. -/
  | right {b : BoxId} {v : Value} (hv : ∀ i, v ≠ .boxed i) (hcontent : Clash h v (h.getBox b)) :
      Clash h v (.boxed b)
  /-- They are in a field. -/
  | field {t u : Ty} {xs ys : List Value} {i : Nat} {x y : Value} (hx : xs[i]? = some x) (hy : ys[i]? = some y)
      (hxy : Clash h x y) : Clash h (.struct t xs) (.struct u ys)

namespace Same

/-- Equality is **symmetric**. -/
theorem symm (hab : h.Same a b) : h.Same b a := by
  induction hab with
  | plain hvw => exact .plain (Value.plainEqual_comm _ _ ▸ hvw)
  | struct htype hlength _ ih =>
    exact .struct (Ty.beq_comm _ _ ▸ htype) hlength.symm fun i x y hx hy => ih i y x hy hx
  | box b => exact .box b
  | boxes htype _ ih => exact .boxes (Ty.beq_comm _ _ ▸ htype) ih
  | left hv _ ih => exact .right hv ih
  | right hv _ ih => exact .left hv ih

/-- Comparable values are equal to **themselves**. -/
theorem refl (hv : h.Comparable v) : h.Same v v := by
  obtain ⟨n, hdepth⟩ : ∃ n, v.Depth h.Holds n := ⟨_, depth_of_acyclic hv.acyclic⟩
  induction hdepth with
  | @plain n v hcell _ ih =>
    cases v with
    | struct t xs =>
      refine .struct (Ty.beq_rfl t) rfl fun i x y hx hy => ?_
      cases hx.symm.trans hy
      have hheld : h.Holds (.struct t xs) x := .field (List.mem_of_getElem? hx)
      exact ih x hheld (hv.step hheld)
    | boxed b => cases hcell
    | _ => exact .plain (Value.plainEqual_self (hv.exact _ .refl) nofun nofun)
  | @cell n v c hcell _ _ =>
    cases v with
    | boxed b => exact .box b
    | array i => exact .plain (Value.plainEqual_self trivial nofun nofun)
    | object i => exact .plain (Value.plainEqual_self trivial nofun nofun)
    | _ => cases hcell

end Same

/-- In a value and itself are no boxes of different types in the same place. -/
theorem not_clash_self (v : Value) : ¬ h.Clash v v := by
  intro hclash
  have hne : ∀ {a b}, h.Clash a b → a ≠ b := by
    intro a b hab
    induction hab with
    | types htype =>
      rintro ⟨⟩
      simp at htype
    | boxes _ ih =>
      rintro ⟨⟩
      exact ih rfl
    | left hv => exact fun heq => hv _ heq.symm
    | right hv => exact fun heq => hv _ heq
    | field hx hy _ ih =>
      rintro ⟨⟩
      exact ih (Option.some_inj.1 (hx.symm.trans hy))
  exact hne hclash rfl

/-- Nor are there in equal values. -/
theorem Same.not_clash (hab : h.Same a b) : ¬ h.Clash a b := by
  induction hab with
  | plain hvw =>
    obtain ⟨ha, hb, hstruct⟩ := Value.ne_of_plainEqual hvw
    intro hclash
    cases hclash with
    | types => exact ha _ rfl
    | boxes => exact ha _ rfl
    | left => exact ha _ rfl
    | right => exact hb _ rfl
    | field => exact hstruct _ _ rfl
  | struct _ _ _ ih =>
    intro hclash
    cases hclash with
    | field hx hy hxy => exact ih _ _ _ hx hy hxy
  | box b => exact not_clash_self _
  | boxes htype _ ih =>
    intro hclash
    cases hclash with
    | types hother => rw [htype] at hother; cases hother
    | boxes hcontent => exact ih hcontent
    | left hv => exact hv _ rfl
    | right hv => exact hv _ rfl
  | left hv _ ih =>
    intro hclash
    cases hclash with
    | types => exact hv _ rfl
    | boxes => exact hv _ rfl
    | left _ hcontent => exact ih hcontent
    | right hbox => exact hbox _ rfl
  | right hv _ ih =>
    intro hclash
    cases hclash with
    | types => exact hv _ rfl
    | boxes => exact hv _ rfl
    | left hbox => exact hbox _ rfl
    | right _ hcontent => exact ih hcontent

/-- Equality is **transitive**, if in the same place of the first value and the last are no boxes of different
types. -/
theorem Same.trans (hab : h.Same a b) (ha : h.Comparable a) (hb : h.Comparable b) (hbc : h.Same b c)
    (hclash : ¬ h.Clash a c) : h.Same a c := by
  -- by the rules of the first equation; where its values are bare, the third is taken out of its boxes one by one
  induction hab generalizing c with
  | @plain a b hvw =>
    have hplain := Value.ne_of_plainEqual hvw
    induction hbc with
    | plain hother => exact .plain (Value.plainEqual_trans (ha.exact _ .refl) (hb.exact _ .refl) hvw hother)
    | struct => exact absurd (Value.plainEqual_comm _ _ ▸ hvw) fun hvw => (Value.ne_of_plainEqual hvw).2.2 _ _ rfl
    | box => exact absurd rfl (hplain.2.1 _)
    | boxes => exact absurd rfl (hplain.2.1 _)
    | left => exact absurd rfl (hplain.2.1 _)
    | right _ _ ih => exact .right hplain.1 (ih hvw hb (fun hc => hclash (.right hplain.1 hc)) hplain)
  | @struct t u xs ys htype hlength _ ih =>
    have hbare : ∀ i, Value.struct t xs ≠ .boxed i := nofun
    generalize hys : Value.struct u ys = b at hbc
    induction hbc with
    | plain hother =>
      subst hys
      exact absurd rfl ((Value.ne_of_plainEqual hother).2.2 _ _)
    | @struct _ _ _ zs htype' hlength' hfields' =>
      cases hys
      refine .struct (Ty.beq_trans htype htype') (hlength.trans hlength') fun i x z hx hz => ?_
      obtain ⟨y, hy⟩ : ∃ y, ys[i]? = some y := by
        have := (List.getElem?_eq_some_iff.1 hz).1
        exact ⟨_, List.getElem?_eq_getElem (hlength' ▸ this)⟩
      exact ih i x y hx hy (ha.step (.field (List.mem_of_getElem? hx))) (hb.step (.field (List.mem_of_getElem? hy)))
        (hfields' i y z hy hz) fun hxz => hclash (.field hx hz hxz)
    | box => cases hys
    | boxes => cases hys
    | left => cases hys
    | right _ _ ihright => exact .right hbare (ihright (fun hc => hclash (.right hbare hc)) hys)
  | box => exact hbc
  | @boxes i j htype hcontent ih =>
    have ha' := ha.step (.content i)
    have hb' := hb.step (.content j)
    cases hbc with
    | plain hother => exact absurd rfl ((Value.ne_of_plainEqual hother).1 _)
    | box => exact .boxes htype hcontent
    | boxes htype' hcontent' =>
      exact .boxes (Ty.beq_trans htype htype') (ih ha' hb' hcontent' fun hc => hclash (.boxes hc))
    | left hc hcontent' => exact .left hc (ih ha' hb' hcontent' fun hc' => hclash (.left hc hc'))
    | right hv => exact absurd rfl (hv _)
  | @left i b hv hcontent ih =>
    have ha' := ha.step (.content i)
    -- the third value is in a box of the same type as the first, or in none
    by_cases hbox : ∃ k, c = .boxed k
    · obtain ⟨k, rfl⟩ := hbox
      have htype : ((h.boxCell i).type == (h.boxCell k).type) = true :=
        Bool.eq_true_of_not_eq_false fun hne => hclash (.types hne)
      cases hbc with
      | plain hother => exact absurd rfl ((Value.ne_of_plainEqual hother).2.1 _)
      | box => exact absurd rfl (hv _)
      | boxes => exact absurd rfl (hv _)
      | left => exact absurd rfl (hv _)
      | right _ hcontent' => exact .boxes htype (ih ha' hb hcontent' fun hc => hclash (.boxes hc))
    · have hc : ∀ k, c ≠ .boxed k := fun k hk => hbox ⟨k, hk⟩
      exact .left hc (ih ha' hb hbc fun hc' => hclash (.left hc hc'))
  | @right j a hv hcontent ih =>
    have hb' := hb.step (.content j)
    cases hbc with
    | plain hother => exact absurd rfl ((Value.ne_of_plainEqual hother).1 _)
    | box => exact .right hv hcontent
    | boxes _ hcontent' => exact .right hv (ih ha hb' hcontent' fun hc => hclash (.right hv hc))
    | left _ hcontent' => exact ih ha hb' hcontent' hclash
    | right hbox => exact absurd rfl (hbox _)

end Heap

end Stackwright
