import Mathlib.Data.Finset.Card
import Mathlib.Logic.Relation
import Stackwright.Value.Snapshot

/-! # Values inside values

A value holds others: a struct its fields, a reference what is in its cell. A value is **acyclic** if nothing
inside it is inside itself. No cell then comes twice on a way down from it, so that no way passes more
references than the heap has cells, and one last reference to nothing.

* **`Value.Acyclic R v`** — nothing that `v` leads to along `R` leads back to itself.
* **`Value.Depth R n v`** — no way down from `v` along `R` passes more than `n` references.
* **`Value.Acyclic.depth`** — an acyclic value is no deeper than there are cells, and one more. -/

namespace Stackwright

namespace Value

open Relation

variable {R : Value → Value → Prop} {v w : Value} {c : CellId} {m n : Nat}

/-- The cell that a **reference** refers to. -/
def cell? : Value → Option CellId
  | .array a => some (.array a.index)
  | .object o => some (.object o.index)
  | .boxed b => some (.boxed b.index)
  | _ => none

/-- A cell is referred to in one way. -/
theorem eq_of_cell (hv : v.cell? = some c) (hw : w.cell? = some c) : v = w := by
  have hreference : ∀ u : Value, u.cell? = some c → u = match c with
      | .array i => .array ⟨i⟩
      | .object i => .object ⟨i⟩
      | .boxed i => .boxed ⟨i⟩ := by
    intro u hu
    cases u <;> cases hu <;> rfl
  exact (hreference v hv).trans (hreference w hw).symm

/-- A value is **acyclic** along a relation: nothing that it leads to leads back to itself. -/
def Acyclic (R : Value → Value → Prop) (v : Value) : Prop := ∀ w, ReflTransGen R v w → ¬ TransGen R w w

/-- What an acyclic value leads to is acyclic. -/
theorem Acyclic.step (h : Acyclic R v) (hw : R v w) : Acyclic R w :=
  fun u hu => h u (.head hw hu)

/-- A value is acyclic if all that it leads to is, and does not lead back to it. -/
theorem acyclic_of_forall (h : ∀ w, R v w → Acyclic R w ∧ ¬ ReflTransGen R w v) : Acyclic R v := by
  intro u hu hcycle
  rcases hu.cases_head with rfl | ⟨w, hw, hu⟩
  · obtain ⟨w, hw, hback⟩ := TransGen.head'_iff.1 hcycle
    exact (h w hw).2 hback
  · exact (h w hw).1 u hu hcycle

/-- The **depth** of a value along a relation: no way down from it passes more references than a number. -/
inductive Depth (R : Value → Value → Prop) : Nat → Value → Prop
  /-- A value that is no reference passes none itself. -/
  | plain {n : Nat} {v : Value} (hv : v.cell? = none) (h : ∀ w, R v w → Depth R n w) : Depth R n v
  /-- A reference is one. -/
  | cell {n : Nat} {v : Value} {c : CellId} (hv : v.cell? = some c) (h : ∀ w, R v w → Depth R n w) :
      Depth R (n + 1) v

namespace Depth

theorem mono (h : Depth R m v) (hmn : m ≤ n) : Depth R n v := by
  induction h generalizing n with
  | plain hv _ ih => exact .plain hv fun w hw => ih w hw hmn
  | cell hv _ ih =>
    obtain ⟨n, rfl⟩ := Nat.exists_eq_add_of_le' (Nat.le_trans (Nat.succ_le_succ (Nat.zero_le _)) hmn)
    exact .cell hv fun w hw => ih w hw (Nat.le_of_succ_le_succ hmn)

/-- What a value that is no reference leads to is no deeper. -/
theorem inside (h : Depth R n v) (hv : v.cell? = none) (hw : R v w) : Depth R n w := by
  cases h with
  | plain _ h => exact h w hw
  | cell hc => rw [hv] at hc; cases hc

/-- What a reference leads to is less deep by one. -/
theorem behind (h : Depth R n v) (hv : v.cell? = some c) : ∃ k, n = k + 1 ∧ ∀ w, R v w → Depth R k w := by
  cases h with
  | plain hc => rw [hv] at hc; cases hc
  | @cell k _ _ _ h => exact ⟨k, rfl, h⟩

end Depth

/-- **An acyclic value is not deep**, if what is no reference holds smaller values only, and a reference to none
of some cells holds nothing but null: no way down from it passes more references than these cells, and one more
that leads no further. -/
theorem Acyclic.depth (h : Acyclic R v) (cells : Finset CellId)
    (hinside : ∀ {v w}, v.cell? = none → R v w → sizeOf w < sizeOf v)
    (hcells : ∀ {v w c}, v.cell? = some c → R v w → c ∈ cells ∨ w = .null) : Depth R (cells.card + 1) v := by
  -- below a reference its own cell does not come again, so there is one cell less to pass
  have hbelow : ∀ (k : Nat) (s : Finset CellId) (v : Value), s.card = k → Acyclic R v →
      (∀ u c w, ReflTransGen R v u → u.cell? = some c → R u w → c ∈ s ∨ w = .null) → Depth R (k + 1) v := by
    intro k
    induction k using Nat.strong_induction_on with
    | _ k ihcells =>
      intro s v hs hv hreach
      induction hsize : sizeOf v using Nat.strong_induction_on generalizing v with
      | _ size ihsize =>
        cases hcell : v.cell? with
        | none =>
          refine .plain hcell fun w hw => ?_
          exact ihsize _ (hsize ▸ hinside hcell hw) w (hv.step hw) (fun u c x hu => hreach u c x (.head hw hu)) rfl
        | some c =>
          refine .cell hcell fun w hw => ?_
          rcases hreach v c w .refl hcell hw with hc | rfl
          · -- the cell is used up
            have hcard : (s.erase c).card + 1 = k := by rw [Finset.card_erase_add_one hc, hs]
            rw [← hcard]
            refine ihcells _ (by omega) (s.erase c) w rfl (hv.step hw) ?_
            intro u d x hu hd hx
            refine (hreach u d x (.head hw hu) hd hx).imp (fun hd' => Finset.mem_erase.2 ⟨?_, hd'⟩) id
            rintro rfl
            -- a way back to the reference would close a cycle
            rw [eq_of_cell hd hcell] at hu
            exact hv v .refl (.head' hw hu)
          · refine .plain rfl fun x hx => ?_
            have hsmall := hinside (v := .null) rfl hx
            cases x <;> simp at hsmall
  exact hbelow _ cells v rfl h fun u c w _ => hcells

end Value

end Stackwright
